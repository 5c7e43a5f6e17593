import Mathlib
import RecordStore.Cache.Shard
import RecordStore.Proofs.Cache.RecencyOrder

/-!
# What a shard keeps true

`Shard.Sound` ties the parts of a shard to each other and to the references
that are out: the recency list runs through the nodes nobody holds, a node is
held as often as references to it are out, and the resident keys are those
written in the nodes.

While a key is being loaded, one node is in hand: it is in no list and has no
key.  `Sound` has a place for it, so that each step of a get keeps `Sound`
(`Sound.evict`, `Sound.fill`, `Sound.abandon`), and so do reuse and release.
-/

namespace RecordStore.Cache.Shard

variable {K : Type} [BEq K] [Hashable K]

/-- The parts of a shard of `size` nodes agree with each other, and with
`held`, the number of references that are out to each node; the node at
`spare?` is in hand. -/
structure Sound (s : Shard K) (size : Nat) (held : Nat → Nat) (spare? : Option Nat) : Prop where
  size_nodes : s.nodes.size = size
  size_links : s.idle.links.size = size
  listed : s.idle.Lists s.idle.fromHead
  mem_idle : ∀ place, place ∈ s.idle.fromHead ↔
    place < size ∧ (s.node place).holders = 0 ∧ spare? ≠ some place
  holders : ∀ place, (s.node place).holders = held place
  keyed : ∀ place, 0 < (s.node place).holders → (s.node place).key?.isSome
  resident : ∀ key place, s.resident[key]? = some place ↔
    ∃ own, (s.node place).key? = some own ∧ own == key
  spare : ∀ place, spare? = some place →
    place < size ∧ (s.node place).holders = 0 ∧ (s.node place).key? = none

/-! ## Nodes -/

theorem node_set_of_ne {s : Shard K} {place other : Nat} {value : Node K}
    {resident : Std.HashMap K Nat} {idle : Recency} (h : place ≠ other) :
    (⟨s.nodes.setIfInBounds place value, resident, idle⟩ : Shard K).node other = s.node other := by
  simp [Shard.node, Array.getD_eq_getD_getElem?, h]

theorem node_set_self {s : Shard K} {place : Nat} {value : Node K}
    {resident : Std.HashMap K Nat} {idle : Recency} (h : place < s.nodes.size) :
    (⟨s.nodes.setIfInBounds place value, resident, idle⟩ : Shard K).node place = value := by
  simp [Shard.node, Array.getD_eq_getD_getElem?, h]

/-- There is nothing beyond the nodes. -/
theorem node_of_size_le {s : Shard K} {place : Nat} (h : s.nodes.size ≤ place) :
    s.node place = ⟨none, [], 0⟩ := by
  simp [Shard.node, Array.getD_eq_getD_getElem?, h]

theorem lt_size_of_holders {s : Shard K} {place : Nat} (h : 0 < (s.node place).holders) :
    place < s.nodes.size := by
  apply Nat.lt_of_not_le
  intro hle
  rw [node_of_size_le hle] at h
  exact absurd h (Nat.lt_irrefl 0)

theorem lt_size_of_key {s : Shard K} {place : Nat} {own : K}
    (h : (s.node place).key? = some own) : place < s.nodes.size := by
  apply Nat.lt_of_not_le
  intro hle
  rw [node_of_size_le hle] at h
  cases h

section

variable {s : Shard K} {place other : Nat} {key : K} {data : Bytes}

theorem reuse_node_self (h : place < s.nodes.size) :
    (s.reuse place).2.node place =
      { s.node place with holders := (s.node place).holders + 1 } :=
  node_set_self h

theorem reuse_node_of_ne (h : place ≠ other) : (s.reuse place).2.node other = s.node other :=
  node_set_of_ne h

theorem evict_node_self (h : place < s.nodes.size) :
    (s.evict place).node place = { s.node place with key? := none } :=
  node_set_self h

theorem evict_node_of_ne (h : place ≠ other) : (s.evict place).node other = s.node other :=
  node_set_of_ne h

@[simp] theorem size_nodes_evict : (s.evict place).nodes.size = s.nodes.size := by
  simp [Shard.evict]

theorem fill_node_self (h : place < s.nodes.size) :
    (s.fill place key data).node place = ⟨some key, data, 1⟩ :=
  node_set_self h

theorem fill_node_of_ne (h : place ≠ other) :
    (s.fill place key data).node other = s.node other :=
  node_set_of_ne h

theorem abandon_node_self (h : place < s.nodes.size) :
    (s.abandon place).node place = { s.node place with data := [] } :=
  node_set_self h

theorem abandon_node_of_ne (h : place ≠ other) : (s.abandon place).node other = s.node other :=
  node_set_of_ne h

end

@[simp] theorem node_ofSize (size place : Nat) :
    (ofSize size : Shard K).node place = ⟨none, [], 0⟩ := by
  simp only [ofSize, Shard.node, Array.getD_eq_getD_getElem?, Array.getElem?_replicate]
  split <;> rfl

/-- A shard without keys is sound, and nothing is held. -/
theorem sound_ofSize (size : Nat) : (ofSize size : Shard K).Sound size (fun _ => 0) none := by
  have hall := Recency.lists_all size
  refine ⟨by simp [ofSize], Recency.size_all size, hall.self, ?_, ?_, ?_, ?_, ?_⟩
  · intro place
    have horder : (ofSize size : Shard K).idle.fromHead = List.range size := hall.fromHead_eq
    simp [horder]
  · intro place
    rw [node_ofSize]
  · intro place hpos
    rw [node_ofSize] at hpos
    exact absurd hpos (Nat.lt_irrefl 0)
  · intro key place
    rw [node_ofSize]
    simp [ofSize]
  · intro place hspare
    cases hspare

section

variable {s : Shard K} {size place : Nat} {held : Nat → Nat}

/-- The node at the tail is in the list. -/
theorem Sound.mem_of_tail {spare? : Option Nat} (h : s.Sound size held spare?)
    (htail : s.idle.tail = some place) : place ∈ s.idle.fromHead := by
  apply List.mem_of_getLast?
  rw [← h.listed.tail, htail]

theorem Sound.lt_size_of_tail {spare? : Option Nat} (h : s.Sound size held spare?)
    (htail : s.idle.tail = some place) : place < s.nodes.size :=
  h.size_nodes ▸ ((h.mem_idle place).mp (h.mem_of_tail htail)).1

theorem Sound.lt_size_evict {spare? : Option Nat} (h : s.Sound size held spare?)
    (htail : s.idle.tail = some place) : place < (s.evict place).nodes.size := by
  rw [size_nodes_evict]
  exact h.lt_size_of_tail htail

/-! ## Steps that keep all keys -/

/-- A node in hand is in no list. -/
theorem Sound.notMem_of_spare (h : s.Sound size held (some place)) :
    place ∉ s.idle.fromHead := by
  intro hmem
  exact ((h.mem_idle place).mp hmem).2.2 rfl

/-- A node that keeps its key may be held by more or fewer, if it is put into
the list or taken out accordingly. -/
theorem Sound.touch {spare? : Option Nat} (h : s.Sound size held spare?)
    (hspare : ∀ other, spare? = some other → other = place) {value : Node K}
    (hplace : place < size) (hkey : value.key? = (s.node place).key?)
    (hkeyed : 0 < value.holders → value.key?.isSome) {idle : Recency} {order : List Nat}
    (hlists : idle.Lists order) (hlinks : idle.links.size = size)
    (hself : place ∈ order ↔ value.holders = 0)
    (hothers : ∀ other, place ≠ other → (other ∈ order ↔ other ∈ s.idle.fromHead))
    {held' : Nat → Nat} (hheld : held' place = value.holders)
    (hheld' : ∀ other, place ≠ other → held' other = held other) :
    (⟨s.nodes.setIfInBounds place value, s.resident, idle⟩ : Shard K).Sound size held' none := by
  have hbound : place < s.nodes.size := h.size_nodes ▸ hplace
  have hnode : ∀ other, place ≠ other →
      (⟨s.nodes.setIfInBounds place value, s.resident, idle⟩ : Shard K).node other =
        s.node other :=
    fun other hne => node_set_of_ne hne
  refine ⟨?_, hlinks, hlists.self, ?_, ?_, ?_, ?_, ?_⟩
  · rw [← h.size_nodes]
    simp
  · intro other
    show other ∈ idle.fromHead ↔ _
    rw [hlists.fromHead_eq]
    by_cases hne : place = other
    · subst hne
      rw [node_set_self hbound, hself]
      simp [hplace]
    · have hfree : spare? ≠ some other := fun heq => hne (hspare other heq).symm
      rw [hothers other hne, hnode other hne, h.mem_idle]
      simp [hfree]
  · intro other
    by_cases hne : place = other
    · subst hne
      rw [node_set_self hbound, hheld]
    · rw [hnode other hne, hheld' other hne, h.holders]
  · intro other hpos
    by_cases hne : place = other
    · subst hne
      rw [node_set_self hbound] at hpos ⊢
      exact hkeyed hpos
    · rw [hnode other hne] at hpos ⊢
      exact h.keyed other hpos
  · intro asked other
    show s.resident[asked]? = some other ↔ _
    rw [h.resident]
    by_cases hne : place = other
    · subst hne
      rw [node_set_self hbound, hkey]
    · rw [hnode other hne]
  · intro other hnone
    cases hnone

/-- **Abandoning** the node in hand puts it at the tail. -/
theorem Sound.abandon (h : s.Sound size held (some place)) :
    (s.abandon place).Sound size held none := by
  obtain ⟨hsize, hidle, hkey⟩ := h.spare place rfl
  have hlists := h.listed.linkTail (h.size_links ▸ hsize) h.notMem_of_spare
  refine h.touch ?_ hsize ?_ ?_ hlists ?_ ?_ ?_ ?_ ?_
  · intro other heq
    exact (Option.some.inj heq).symm
  · rfl
  · exact h.keyed place
  · rw [Recency.size_linkTail, h.size_links]
  · simp [hidle]
  · intro other hne
    simp [Ne.symm hne]
  · exact (h.holders place).symm
  · intro other _
    rfl

/-- **Reusing** the node of a resident key gives out one more reference, and
takes the node out of the list if it was in it. -/
theorem Sound.reuse (h : s.Sound size held none) {key : K}
    (hhit : s.resident[key]? = some place) :
    (s.reuse place).2.Sound size (fun other => held other + if place = other then 1 else 0)
      none := by
  obtain ⟨own, hown, -⟩ := (h.resident key place).mp hhit
  have hsize : place < size := h.size_nodes ▸ lt_size_of_key hown
  have hkeyed : (s.node place).key?.isSome := by
    rw [hown]
    rfl
  have hheld : held place + (if place = place then 1 else 0) = (s.node place).holders + 1 := by
    rw [if_pos rfl, h.holders]
  have hheld' : ∀ other, place ≠ other → held other + (if place = other then 1 else 0) =
      held other := by
    intro other hne
    rw [if_neg hne, Nat.add_zero]
  have hnone : ∀ other, (none : Option Nat) = some other → other = place := by
    intro other heq
    cases heq
  show Sound ⟨s.nodes.setIfInBounds place _, s.resident, if _ then _ else _⟩ _ _ _
  by_cases hidle : (s.node place).holders = 0
  · have hmem := (h.mem_idle place).mpr ⟨hsize, hidle, by simp⟩
    rw [if_pos hidle]
    refine h.touch hnone hsize ?_ ?_ (h.listed.unlink_of_mem hmem) ?_ ?_ ?_ ?_ hheld'
    · rfl
    · exact fun _ => hkeyed
    · rw [Recency.size_unlink, h.size_links]
    · simp [h.listed.nodup.mem_erase_iff]
    · intro other hne
      simp [h.listed.nodup.mem_erase_iff, Ne.symm hne]
    · exact hheld
  · have hout : place ∉ s.idle.fromHead := fun hmem => hidle ((h.mem_idle place).mp hmem).2.1
    rw [if_neg hidle]
    refine h.touch hnone hsize ?_ ?_ h.listed h.size_links ?_ ?_ ?_ hheld'
    · rfl
    · exact fun _ => hkeyed
    · simp [hout]
    · intro other _
      rfl
    · exact hheld

/-- **Releasing** a node takes back one reference, and puts the node at the
head of the list if that was the last. -/
theorem Sound.release (h : s.Sound size held none) (hpos : 0 < held place) :
    (s.release place).Sound size (fun other => held other - if place = other then 1 else 0)
      none := by
  rw [← h.holders] at hpos
  have hsize : place < size := h.size_nodes ▸ lt_size_of_holders hpos
  have hout : place ∉ s.idle.fromHead := by
    intro hmem
    rw [((h.mem_idle place).mp hmem).2.1] at hpos
    exact absurd hpos (Nat.lt_irrefl 0)
  have hheld : held place - (if place = place then 1 else 0) = (s.node place).holders - 1 := by
    rw [if_pos rfl, h.holders]
  have hheld' : ∀ other, place ≠ other → held other - (if place = other then 1 else 0) =
      held other := by
    intro other hne
    rw [if_neg hne, Nat.sub_zero]
  have hnone : ∀ other, (none : Option Nat) = some other → other = place := by
    intro other heq
    cases heq
  show Sound ⟨s.nodes.setIfInBounds place _, s.resident, if _ then _ else _⟩ _ _ _
  by_cases hlast : (s.node place).holders - 1 = 0
  · rw [if_pos hlast]
    refine h.touch hnone hsize ?_ ?_ (h.listed.linkHead (h.size_links ▸ hsize) hout) ?_ ?_ ?_ ?_
      hheld'
    · rfl
    · exact fun _ => h.keyed place hpos
    · rw [Recency.size_linkHead, h.size_links]
    · simpa using hlast
    · intro other hne
      simp [Ne.symm hne]
    · exact hheld
  · rw [if_neg hlast]
    refine h.touch hnone hsize ?_ ?_ h.listed h.size_links ?_ ?_ ?_ hheld'
    · rfl
    · exact fun _ => h.keyed place hpos
    · simp only [hout, false_iff]
      exact hlast
    · intro other _
      rfl
    · exact hheld

/-- A release changes no key and no bytes. -/
theorem release_node (s : Shard K) (place other : Nat) :
    ((s.release place).node other).key? = (s.node other).key? ∧
      ((s.release place).node other).data = (s.node other).data := by
  by_cases hne : place = other
  · subst hne
    by_cases hbound : place < s.nodes.size
    · have hself : (s.release place).node place =
          { s.node place with holders := (s.node place).holders - 1 } := node_set_self hbound
      rw [hself]
      exact ⟨rfl, rfl⟩
    · have hsize : (s.release place).nodes.size = s.nodes.size := by simp [Shard.release]
      rw [node_of_size_le (Nat.le_of_not_lt hbound),
        node_of_size_le (hsize ▸ Nat.le_of_not_lt hbound)]
      exact ⟨rfl, rfl⟩
  · have hother : (s.release place).node other = s.node other := node_set_of_ne hne
    rw [hother]
    exact ⟨rfl, rfl⟩

/-! ## Steps that change a key -/

variable [EquivBEq K] [LawfulHashable K]

/-- Forgetting the key of a node takes it out of the map, and no other. -/
theorem Sound.evict_resident (h : s.Sound size held none) (key : K) (other : Nat) :
    (s.evict place).resident[key]? = some other ↔ s.resident[key]? = some other ∧ other ≠ place := by
  cases hkey : (s.node place).key? with
  | none =>
      simp only [Shard.evict, hkey]
      constructor
      · intro hfound
        refine ⟨hfound, ?_⟩
        intro heq
        obtain ⟨own, hown, -⟩ := (h.resident key other).mp hfound
        rw [heq, hkey] at hown
        cases hown
      · intro hfound
        exact hfound.1
  | some own =>
      simp only [Shard.evict, hkey, Std.HashMap.getElem?_erase]
      by_cases hsame : own == key
      · have hplace := (h.resident key place).mpr ⟨own, hkey, hsame⟩
        simp only [hsame, if_true, hplace, Option.some.injEq]
        constructor
        · intro hnone
          cases hnone
        · intro hfound
          exact absurd hfound.1.symm hfound.2
      · simp only [hsame, Bool.false_eq_true, if_false]
        constructor
        · intro hfound
          refine ⟨hfound, ?_⟩
          intro heq
          obtain ⟨own', hown, hsame'⟩ := (h.resident key other).mp hfound
          rw [heq, hkey] at hown
          obtain rfl := Option.some.inj hown
          exact hsame hsame'
        · intro hfound
          exact hfound.1

theorem Sound.evict_resident_none (h : s.Sound size held none) {key : K}
    (hmiss : s.resident[key]? = none) : (s.evict place).resident[key]? = none := by
  cases hfound : (s.evict place).resident[key]? with
  | none => rfl
  | some other =>
      have hfound' := ((h.evict_resident key other).mp hfound).1
      rw [hmiss] at hfound'
      cases hfound'

/-- **Evicting** the node at the tail takes it in hand. -/
theorem Sound.evict (h : s.Sound size held none) (htail : s.idle.tail = some place) :
    (s.evict place).Sound size held (some place) := by
  have hmem := h.mem_of_tail htail
  obtain ⟨hsize, hidle, -⟩ := (h.mem_idle place).mp hmem
  have hlists := h.listed.unlink_of_mem hmem
  have hself := evict_node_self (h.lt_size_of_tail htail)
  have hother : ∀ other, place ≠ other → (s.evict place).node other = s.node other :=
    fun other hne => evict_node_of_ne hne
  have hholders : ∀ other, ((s.evict place).node other).holders = (s.node other).holders := by
    intro other
    by_cases hne : place = other
    · rw [← hne, hself]
    · rw [hother other hne]
  refine ⟨?_, ?_, hlists.self, ?_, ?_, ?_, ?_, ?_⟩
  · rw [← h.size_nodes]
    exact size_nodes_evict
  · rw [← h.size_links]
    exact Recency.size_unlink
  · intro other
    have horder : (s.evict place).idle.fromHead = s.idle.fromHead.erase place :=
      hlists.fromHead_eq
    rw [horder, h.listed.nodup.mem_erase_iff, h.mem_idle, hholders]
    simp only [ne_eq, Option.some.injEq, reduceCtorEq, not_false_eq_true, and_true]
    constructor
    · intro hin
      exact ⟨hin.2.1, hin.2.2, fun heq => hin.1 heq.symm⟩
    · intro hin
      exact ⟨fun heq => hin.2.2 heq.symm, hin.1, hin.2.1⟩
  · intro other
    rw [hholders, h.holders]
  · intro other hpos
    rw [hholders] at hpos
    have hne : place ≠ other := by
      intro heq
      rw [← heq, hidle] at hpos
      exact absurd hpos (Nat.lt_irrefl 0)
    rw [hother other hne]
    exact h.keyed other hpos
  · intro key other
    rw [h.evict_resident, h.resident]
    constructor
    · intro hin
      rw [hother other (Ne.symm hin.2)]
      exact hin.1
    · intro hin
      have hne : place ≠ other := by
        intro heq
        obtain ⟨own, hown, -⟩ := hin
        rw [← heq, hself] at hown
        cases hown
      rw [hother other hne] at hin
      exact ⟨hin, Ne.symm hne⟩
  · intro other hspare
    obtain rfl := Option.some.inj hspare
    rw [hself]
    exact ⟨hsize, hidle, rfl⟩

/-- **Filling** the node in hand gives out a reference to it. -/
theorem Sound.fill (h : s.Sound size held (some place)) {key : K}
    (hmiss : s.resident[key]? = none) (data : Bytes) :
    (s.fill place key data).Sound size (fun other => held other + if place = other then 1 else 0)
      none := by
  obtain ⟨hsize, hidle, hkey⟩ := h.spare place rfl
  have hself : (s.fill place key data).node place = ⟨some key, data, 1⟩ :=
    fill_node_self (h.size_nodes ▸ hsize)
  have hother : ∀ other, place ≠ other → (s.fill place key data).node other = s.node other :=
    fun other hne => fill_node_of_ne hne
  refine ⟨?_, h.size_links, h.listed, ?_, ?_, ?_, ?_, ?_⟩
  · rw [← h.size_nodes]
    simp [Shard.fill]
  · intro other
    show other ∈ s.idle.fromHead ↔ _
    by_cases hne : place = other
    · subst hne
      rw [hself]
      simp [h.notMem_of_spare]
    · rw [h.mem_idle, hother other hne]
      simp [hne]
  · intro other
    by_cases hne : place = other
    · subst hne
      rw [hself, ← h.holders, hidle]
      simp
    · rw [hother other hne, h.holders]
      simp [hne]
  · intro other hpos
    by_cases hne : place = other
    · subst hne
      rw [hself]
      rfl
    · rw [hother other hne] at hpos ⊢
      exact h.keyed other hpos
  · intro asked other
    show (s.resident.insert key place)[asked]? = some other ↔ _
    rw [Std.HashMap.getElem?_insert]
    by_cases hne : place = other
    · subst hne
      rw [hself]
      by_cases hsame : key == asked
      · simp [hsame]
      · have hnot : s.resident[asked]? ≠ some place := by
          intro hfound
          obtain ⟨own, hown, -⟩ := (h.resident asked place).mp hfound
          rw [hkey] at hown
          cases hown
        simp [hsame, hnot]
    · rw [hother other hne, ← h.resident]
      by_cases hsame : key == asked
      · have hnone : s.resident[asked]? = none := by
          rw [← Std.HashMap.getElem?_congr hsame]
          exact hmiss
        simp [hsame, hnone, hne]
      · simp [hsame]
  · intro other hspare
    cases hspare

end

end RecordStore.Cache.Shard
