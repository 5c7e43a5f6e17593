import Mathlib
import RecordStore.Proofs.Cache.ShardGet
import RecordStore.Proofs.Cache.Shelf

/-!
# The shelf behind a shard

`Shard.shelf` is what a shard comes to when its nodes and links are forgotten.
Gets and releases of the shard are steps of the shelf behind it (`Gets.step`,
`Sound.step_release`).

What makes it so is that nodes without a key are the last in the list of idle
nodes (`KeyedFirst`): the node at the tail has a key only if all nodes have.
-/

namespace RecordStore.Cache

variable {K : Type} {σ : Type}

/-- What is known of the key of a node. -/
def Node.known? (node : Node K) : Option (Entry K) :=
  node.key?.map fun key => ⟨key, node.data, node.holders⟩

/-- A loader that writes down its answers. -/
def logged (load : σ → Except StoreError Bytes × σ)
    (state : σ × List (Except StoreError Bytes)) :
    Except StoreError Bytes × (σ × List (Except StoreError Bytes)) :=
  ((load state.1).1, ((load state.1).2, (load state.1).1 :: state.2))

/-- The bytes that an answer gives. -/
def Answer.bytes (answer : Answer) : Except StoreError (Option Bytes) :=
  match answer with
  | .held _ data => .ok (some data)
  | .exhausted => .ok none
  | .failed e => .error e

namespace Shard

variable [BEq K] [Hashable K]

/-- The shelf behind a shard. -/
def shelf (s : Shard K) : Shelf K where
  free := s.nodes.countP (·.key?.isNone)
  idle := s.idle.fromHead.filterMap fun place => (s.node place).key?
  known? := fun key => s.resident[key]?.bind fun place => (s.node place).known?

/-- Behind a node without a key there is none with one. -/
def KeyedFirst (s : Shard K) : Prop :=
  s.idle.fromHead.Pairwise fun newer older =>
    (s.node newer).key? = none → (s.node older).key? = none

/-- The key that a get of a key drops from its node. -/
def evictee? (s : Shard K) (key : K) : Option K :=
  match s.resident[key]? with
  | some _ => none
  | none => s.idle.tail.bind fun place => (s.node place).key?

/-! ## Nodes that change -/

/-- Changing one node changes the number of free entries by that node. -/
theorem countP_set {s : Shard K} {place : Nat} (hplace : place < s.nodes.size) (value : Node K) :
    (s.nodes.setIfInBounds place value).countP (·.key?.isNone) =
      s.nodes.countP (·.key?.isNone) - (if (s.node place).key?.isNone then 1 else 0) +
        (if value.key?.isNone then 1 else 0) := by
  have hnode : s.node place = s.nodes[place] := by
    simp [Shard.node, Array.getD_eq_getD_getElem?, hplace]
  rw [Array.setIfInBounds_def, dif_pos hplace, Array.countP_set, hnode]

/-- A list of idle nodes that has only become shorter still has those with
keys first. -/
theorem KeyedFirst.of_sublist {s s' : Shard K} (h : s.KeyedFirst)
    (hsub : s'.idle.fromHead.Sublist s.idle.fromHead)
    (hkey : ∀ place ∈ s'.idle.fromHead, (s'.node place).key? = (s.node place).key?) :
    s'.KeyedFirst := by
  have hshort := List.Pairwise.sublist hsub h
  refine hshort.imp_of_mem ?_
  intro newer older hnewer holder hnone
  rw [hkey newer hnewer, hkey older holder]
  exact hnone

section

variable {s : Shard K} {size place : Nat} {held : Nat → Nat} {key own : K} {value : Node K}
  {idle : Recency} {spare? : Option Nat}

/-- A reuse changes no key. -/
theorem reuse_key (hplace : place < s.nodes.size) (other : Nat) :
    ((s.reuse place).2.node other).key? = (s.node other).key? := by
  by_cases hne : place = other
  · rw [← hne, reuse_node_self hplace]
  · rw [reuse_node_of_ne hne]

/-- A node that keeps its key changes what is known of that key. -/
theorem Sound.known?_touch (h : s.Sound size held spare?) (hown : (s.node place).key? = some own) :
    (⟨s.nodes.setIfInBounds place value, s.resident, idle⟩ : Shard K).shelf.known? =
      (s.shelf.set own value.known?).known? := by
  funext other
  show (s.resident[other]?.bind fun p => (Shard.node _ p).known?) =
    if own == other then value.known? else s.resident[other]?.bind fun p => (s.node p).known?
  by_cases hsame : own == other
  · have hplace := (h.resident other place).mpr ⟨own, hown, hsame⟩
    rw [if_pos hsame, hplace, Option.bind_some, node_set_self (lt_size_of_key hown)]
  · rw [if_neg hsame]
    apply Option.bind_congr
    intro p hp
    obtain ⟨own', hown', hsame'⟩ := (h.resident other p).mp hp
    have hne : place ≠ p := by
      rintro rfl
      rw [hown] at hown'
      obtain rfl := Option.some.inj hown'
      exact hsame hsame'
    rw [node_set_of_ne hne]

theorem countP_touch (hkey : value.key? = (s.node place).key?)
    (hown : (s.node place).key? = some own) :
    (s.nodes.setIfInBounds place value).countP (·.key?.isNone) =
      s.nodes.countP (·.key?.isNone) := by
  rw [countP_set (lt_size_of_key hown), hkey, hown]
  rfl

/-- What is known of the key of a node. -/
theorem Sound.known?_of_key (h : s.Sound size held spare?) (hown : (s.node place).key? = some own)
    (hsame : own == key) :
    s.shelf.known? key = some ⟨own, (s.node place).data, (s.node place).holders⟩ := by
  have hplace := (h.resident key place).mpr ⟨own, hown, hsame⟩
  show (s.resident[key]?.bind fun p => (s.node p).known?) = _
  rw [hplace, Option.bind_some, Node.known?, hown]
  rfl

/-! ## Steps that keep all keys -/

/-- Taking a node out of the list takes its key out of the queue. -/
theorem Sound.idle_filter [EquivBEq K] (h : s.Sound size held spare?)
    (hown : (s.node place).key? = some own) :
    ((s.idle.fromHead.filter (· ≠ place)).filterMap fun p => (s.node p).key?) =
      s.shelf.idle.filter fun other => !other == own := by
  show _ = (s.idle.fromHead.filterMap fun p => (s.node p).key?).filter _
  rw [List.filterMap_filter, List.filter_filterMap]
  apply List.filterMap_congr
  intro p _
  cases hkey : (s.node p).key? with
  | none => simp
  | some own' =>
      have hsame : (own' == own) = true ↔ p = place := by
        constructor
        · exact h.place_unique hkey hown
        · rintro rfl
          rw [hkey] at hown
          obtain rfl := Option.some.inj hown
          exact BEq.rfl
      by_cases hne : p = place
      · simp [hne, hsame.mpr hne, Option.filter]
      · simp [hne, mt hsame.mp hne, Option.filter]

theorem Sound.fromHead_reuse (h : s.Sound size held none) (hplace : place < s.nodes.size) :
    (s.reuse place).2.idle.fromHead = s.idle.fromHead.filter (· ≠ place) := by
  show Recency.fromHead (if _ then _ else _) = _
  by_cases hidle : (s.node place).holders = 0
  · have hmem := (h.mem_idle place).mpr ⟨h.size_nodes ▸ hplace, hidle, by simp⟩
    rw [if_pos hidle, (h.listed.unlink_of_mem hmem).fromHead_eq, h.listed.nodup.erase_eq_filter]
    exact List.filter_congr fun p _ => by simp [bne, beq_eq_decide]
  · have hout : place ∉ s.idle.fromHead := fun hmem => hidle ((h.mem_idle place).mp hmem).2.1
    rw [if_neg hidle]
    symm
    apply List.filter_eq_self.mpr
    intro p hp
    have hne : p ≠ place := by
      rintro rfl
      exact hout hp
    simpa using hne

theorem Sound.fromHead_release (h : s.Sound size held none) (hpos : 0 < held place) :
    (s.release place).idle.fromHead =
      if (s.node place).holders - 1 = 0 then place :: s.idle.fromHead else s.idle.fromHead := by
  rw [← h.holders] at hpos
  have hplace : place < s.idle.links.size := by
    rw [h.size_links, ← h.size_nodes]
    exact lt_size_of_holders hpos
  have hout : place ∉ s.idle.fromHead := by
    intro hmem
    have hidle := ((h.mem_idle place).mp hmem).2.1
    omega
  show Recency.fromHead (if _ then _ else _) = _
  by_cases hlast : (s.node place).holders - 1 = 0
  · rw [if_pos hlast, if_pos hlast]
    exact (h.listed.linkHead hplace hout).fromHead_eq
  · rw [if_neg hlast, if_neg hlast]

/-- **Reusing a node** lends its key once more. -/
theorem Sound.shelf_reuse [EquivBEq K] (h : s.Sound size held none)
    (hown : (s.node place).key? = some own) : (s.reuse place).2.shelf =
      s.shelf.lend ⟨own, (s.node place).data, (s.node place).holders⟩ := by
  have hbound : place < s.nodes.size := lt_size_of_key hown
  have hvalue : ({ s.node place with holders := (s.node place).holders + 1 } : Node K).known? =
      some ⟨own, (s.node place).data, (s.node place).holders + 1⟩ := by
    simp [Node.known?, hown]
  have hkeys : (s.reuse place).2.shelf.idle =
      (s.reuse place).2.idle.fromHead.filterMap fun p => (s.node p).key? :=
    List.filterMap_congr fun p _ => reuse_key hbound p
  apply Shelf.ext
  · exact countP_touch rfl hown
  · rw [hkeys, h.fromHead_reuse hbound]
    exact h.idle_filter hown
  · exact (h.known?_touch hown).trans (by rw [hvalue]; rfl)

theorem KeyedFirst.reuse (hfirst : s.KeyedFirst) (h : s.Sound size held none)
    (hown : (s.node place).key? = some own) : (s.reuse place).2.KeyedFirst := by
  have hbound : place < s.nodes.size := lt_size_of_key hown
  refine hfirst.of_sublist ?_ fun p _ => reuse_key hbound p
  rw [h.fromHead_reuse hbound]
  exact List.filter_sublist

/-- **Releasing a node** gives back its key. -/
theorem Sound.shelf_release (h : s.Sound size held none) (hpos : 0 < held place)
    (hown : (s.node place).key? = some own) : (s.release place).shelf =
      s.shelf.giveBack ⟨own, (s.node place).data, (s.node place).holders⟩ := by
  have hvalue : ({ s.node place with holders := (s.node place).holders - 1 } : Node K).known? =
      some ⟨own, (s.node place).data, (s.node place).holders - 1⟩ := by
    simp [Node.known?, hown]
  have hkeys : (s.release place).shelf.idle =
      (s.release place).idle.fromHead.filterMap fun p => (s.node p).key? :=
    List.filterMap_congr fun p _ => (release_node s place p).1
  apply Shelf.ext
  · exact countP_touch rfl hown
  · rw [hkeys, h.fromHead_release hpos]
    show _ = if (s.node place).holders - 1 = 0 then _ else _
    by_cases hlast : (s.node place).holders - 1 = 0
    · rw [if_pos hlast, if_pos hlast]
      exact List.filterMap_cons_some hown
    · rw [if_neg hlast, if_neg hlast]
      rfl
  · exact (h.known?_touch hown).trans (by rw [hvalue]; rfl)

theorem KeyedFirst.release (hfirst : s.KeyedFirst) (h : s.Sound size held none)
    (hpos : 0 < held place) (hown : (s.node place).key? = some own) :
    (s.release place).KeyedFirst := by
  have hkey : ∀ other, ((s.release place).node other).key? = (s.node other).key? :=
    fun other => (release_node s place other).1
  have hrest : s.idle.fromHead.Pairwise fun newer older =>
      ((s.release place).node newer).key? = none → ((s.release place).node older).key? = none :=
    List.Pairwise.imp (fun hle => by rwa [hkey, hkey]) hfirst
  unfold KeyedFirst
  rw [h.fromHead_release hpos]
  split
  · refine List.pairwise_cons.mpr ⟨?_, hrest⟩
    intro older _ hnone
    rw [hkey, hown] at hnone
    cases hnone
  · exact hrest

/-- **A release of a node is a step of the shelf behind it.** -/
theorem Sound.step_release (h : s.Sound size held none) (hpos : 0 < held place)
    (hown : (s.node place).key? = some own) (hsame : own == key) :
    s.shelf.Step (.released key) (s.release place).shelf := by
  rw [h.shelf_release hpos hown]
  rw [← h.holders] at hpos
  exact .released (h.known?_of_key hown hsame) hpos

/-! ## Steps that change a key -/

/-- The node at the tail is the last in the list. -/
theorem Sound.split_tail (h : s.Sound size held none) (htail : s.idle.tail = some place) :
    ∃ front, s.idle.fromHead = front ++ [place] ∧ place ∉ front ∧
      s.idle.fromHead.erase place = front := by
  have hlast := h.listed.tail
  rw [htail] at hlast
  obtain ⟨front, hsplit⟩ := List.getLast?_eq_some_iff.mp hlast.symm
  have hfront : place ∉ front := (hsplit ▸ h.listed).notMem_of_split.1
  refine ⟨front, hsplit, hfront, ?_⟩
  rw [hsplit, List.erase_append_right _ hfront, List.erase_cons_head, List.append_nil]

/-- A node nobody holds is in the list. -/
theorem Sound.mem_of_keyless (h : s.Sound size held none) {other : Nat} (hother : other < size)
    (hnone : (s.node other).key? = none) : other ∈ s.idle.fromHead := by
  have hidle : (s.node other).holders = 0 := by
    by_contra hheld
    have hkeyed := h.keyed other (Nat.pos_of_ne_zero hheld)
    rw [hnone] at hkeyed
    cases hkeyed
  exact (h.mem_idle other).mpr ⟨hother, hidle, by simp⟩

/-- **If the node at the tail has a key, all nodes have.** -/
theorem KeyedFirst.keyed_of_tail (hfirst : s.KeyedFirst) (h : s.Sound size held none)
    (htail : s.idle.tail = some place) (hown : (s.node place).key? = some own) {other : Nat}
    (hother : other < size) : (s.node other).key? ≠ none := by
  intro hnone
  obtain ⟨front, hsplit, -, -⟩ := h.split_tail htail
  have hmem := h.mem_of_keyless hother hnone
  unfold KeyedFirst at hfirst
  rw [hsplit] at hmem hfirst
  have hlast : (s.node place).key? = none := by
    rcases List.mem_append.mp hmem with hin | hin
    · exact (List.pairwise_append.mp hfirst).2.2 other hin place (List.mem_singleton_self _) hnone
    · rw [← List.mem_singleton.mp hin]
      exact hnone
  rw [hown] at hlast
  cases hlast

theorem free_eq_zero_iff (hsize : s.nodes.size = size) :
    s.shelf.free = 0 ↔ ∀ other < size, (s.node other).key? ≠ none := by
  subst hsize
  show s.nodes.countP (·.key?.isNone) = 0 ↔ _
  rw [Array.countP_eq_zero]
  constructor
  · intro hall other hother hnone
    have hnode : s.node other = s.nodes[other] := by
      simp [Shard.node, Array.getD_eq_getD_getElem?, hother]
    rw [hnode] at hnone
    exact hall s.nodes[other] (Array.getElem_mem hother) (by rw [hnone]; rfl)
  · intro hall node hmem hnone
    obtain ⟨other, hother, rfl⟩ := Array.getElem_of_mem hmem
    apply hall other hother
    simpa [Shard.node, Array.getD_eq_getD_getElem?, hother] using hnone

/-- What the list and the keys in it are after the node at the tail was taken
out. -/
theorem Sound.idle_evict (h : s.Sound size held none) (htail : s.idle.tail = some place) :
    ∃ front, s.idle.fromHead = front ++ [place] ∧ (s.evict place).idle.fromHead = front ∧
      ∀ other ∈ front, ((s.evict place).node other).key? = (s.node other).key? := by
  obtain ⟨front, hsplit, hfront, herase⟩ := h.split_tail htail
  refine ⟨front, hsplit, ?_, ?_⟩
  · exact (h.listed.unlink_of_mem (h.mem_of_tail htail)).fromHead_eq.trans herase
  · intro other hother
    have hne : place ≠ other := by
      rintro rfl
      exact hfront hother
    rw [evict_node_of_ne hne]

theorem KeyedFirst.evict (hfirst : s.KeyedFirst) (h : s.Sound size held none)
    (htail : s.idle.tail = some place) : (s.evict place).KeyedFirst := by
  obtain ⟨front, hsplit, horder, hkey⟩ := h.idle_evict htail
  apply hfirst.of_sublist
  · rw [horder, hsplit]
    exact List.sublist_append_left front [place]
  · rw [horder]
    exact hkey

/-- The key of the node at the tail is the last in the queue, and gone once the
node is in hand. -/
theorem Sound.keys_evict (h : s.Sound size held none) (htail : s.idle.tail = some place) :
    s.shelf.idle = (s.evict place).shelf.idle ++ (s.node place).key?.toList := by
  obtain ⟨front, hsplit, horder, hkey⟩ := h.idle_evict htail
  have hfront : (s.evict place).shelf.idle = front.filterMap fun p => (s.node p).key? := by
    show (s.evict place).idle.fromHead.filterMap _ = _
    rw [horder]
    exact List.filterMap_congr hkey
  have hlast : ([place].filterMap fun p => (s.node p).key?) = (s.node place).key?.toList := by
    cases hown : (s.node place).key? <;> simp [hown]
  rw [hfront, ← hlast, ← List.filterMap_append, ← hsplit]
  rfl

theorem free_evict (hplace : place < s.nodes.size) : (s.evict place).shelf.free =
    s.shelf.free - (if (s.node place).key?.isNone then 1 else 0) + 1 :=
  countP_set hplace _

/-- **Abandoning the node in hand** leaves the shelf as it is. -/
theorem Sound.shelf_abandon (h : s.Sound size held (some place)) :
    (s.abandon place).shelf = s.shelf := by
  obtain ⟨hsize, -, hnone⟩ := h.spare place rfl
  have hbound : place < s.nodes.size := h.size_nodes ▸ hsize
  have hkey : ∀ p, ((s.abandon place).node p).key? = (s.node p).key? := by
    intro p
    by_cases hne : place = p
    · rw [← hne, abandon_node_self hbound]
    · rw [abandon_node_of_ne hne]
  apply Shelf.ext
  · have hfree : (s.abandon place).shelf.free =
        s.shelf.free - (if (s.node place).key?.isNone then 1 else 0) +
          (if (s.node place).key?.isNone then 1 else 0) := countP_set hbound _
    have hpos : s.shelf.free ≠ 0 := by
      intro hzero
      exact (free_eq_zero_iff h.size_nodes).mp hzero place hsize hnone
    rw [hfree, hnone, Option.isNone_none, if_pos rfl]
    omega
  · show (s.idle.linkTail place).fromHead.filterMap _ = s.idle.fromHead.filterMap _
    have hlast : ([place].filterMap fun p => ((s.abandon place).node p).key?) = [] := by
      simp [hkey, hnone]
    rw [(h.listed.linkTail (h.size_links ▸ hsize) h.notMem_of_spare).fromHead_eq,
      List.filterMap_append, hlast, List.append_nil]
    exact List.filterMap_congr fun p _ => hkey p
  · funext other
    show (s.resident[other]?.bind _) = s.resident[other]?.bind _
    apply Option.bind_congr
    intro p hp
    have hne : place ≠ p := by
      rintro rfl
      obtain ⟨own, hown, -⟩ := (h.resident other place).mp hp
      rw [hnone] at hown
      cases hown
    rw [abandon_node_of_ne hne]

theorem KeyedFirst.fill (hfirst : s.KeyedFirst) (h : s.Sound size held (some place))
    (data : Bytes) : (s.fill place key data).KeyedFirst := by
  refine hfirst.of_sublist ?_ ?_
  · exact List.Sublist.refl s.idle.fromHead
  · intro p hp
    have hne : place ≠ p := by
      rintro rfl
      exact h.notMem_of_spare hp
    rw [fill_node_of_ne hne]

theorem KeyedFirst.abandon (hfirst : s.KeyedFirst) (h : s.Sound size held (some place)) :
    (s.abandon place).KeyedFirst := by
  obtain ⟨hsize, -, hnone⟩ := h.spare place rfl
  have hother : ∀ p ∈ s.idle.fromHead, (s.abandon place).node p = s.node p := by
    intro p hp
    have hne : place ≠ p := by
      rintro rfl
      exact h.notMem_of_spare hp
    exact abandon_node_of_ne hne
  have horder : (s.abandon place).idle.fromHead = s.idle.fromHead ++ [place] :=
    (h.listed.linkTail (h.size_links ▸ hsize) h.notMem_of_spare).fromHead_eq
  unfold KeyedFirst
  rw [horder, List.pairwise_append]
  refine ⟨?_, List.pairwise_singleton _ _, ?_⟩
  · refine List.Pairwise.imp_of_mem ?_ hfirst
    intro newer older hnewer holder hle
    rwa [hother newer hnewer, hother older holder]
  · intro newer _ older holder _
    rw [List.mem_singleton.mp holder, abandon_node_self (h.size_nodes ▸ hsize)]
    exact hnone

theorem known?_eq_none (hmiss : s.resident[key]? = none) : s.shelf.known? key = none := by
  show s.resident[key]?.bind _ = none
  rw [hmiss]
  rfl

/-- With every node held, there is no room. -/
theorem Sound.makeRoom?_eq_none (h : s.Sound size held none) (hfull : s.idle.tail = none) :
    s.shelf.makeRoom? = none := by
  have horder : s.idle.fromHead = [] := by
    rw [h.listed.tail] at hfull
    exact List.getLast?_eq_none_iff.mp hfull
  have hzero : s.shelf.free = 0 := by
    apply (free_eq_zero_iff h.size_nodes).mpr
    intro other hother hnone
    have hmem := h.mem_of_keyless hother hnone
    rw [horder] at hmem
    cases hmem
  have hidle : s.shelf.idle = [] := by
    show s.idle.fromHead.filterMap _ = []
    rw [horder]
    rfl
  rw [Shelf.makeRoom?, if_neg (by omega), hidle]
  rfl

variable [EquivBEq K] [LawfulHashable K]

theorem Sound.known?_evict_of_ne (h : s.Sound size held none) {other : K}
    (hne : s.resident[other]? ≠ some place) :
    (s.evict place).shelf.known? other = s.shelf.known? other := by
  show (s.evict place).resident[other]?.bind _ = s.resident[other]?.bind _
  cases hfound : s.resident[other]? with
  | none => rw [h.evict_resident_none hfound]; rfl
  | some p =>
      have hplace : place ≠ p := by
        rintro rfl
        exact hne hfound
      rw [(h.evict_resident other p).mpr ⟨hfound, Ne.symm hplace⟩, Option.bind_some,
        Option.bind_some, evict_node_of_ne hplace]

theorem Sound.known?_evict_self (h : s.Sound size held none) {other : K}
    (hplace : s.resident[other]? = some place) : (s.evict place).shelf.known? other = none := by
  have hgone : (s.evict place).resident[other]? = none := by
    rw [Option.eq_none_iff_forall_ne_some]
    intro p hp
    obtain ⟨hold, hne⟩ := (h.evict_resident other p).mp hp
    rw [hplace] at hold
    exact hne (Option.some.inj hold).symm
  show (s.evict place).resident[other]?.bind _ = none
  rw [hgone]
  rfl

/-- A node without a key is evicted for nothing. -/
theorem Sound.shelf_evict_keyless (h : s.Sound size held none) (htail : s.idle.tail = some place)
    (hnone : (s.node place).key? = none) :
    (s.evict place).shelf = s.shelf ∧ 0 < s.shelf.free := by
  have hbound := h.lt_size_of_tail htail
  have hpos : 0 < s.shelf.free := by
    rw [Nat.pos_iff_ne_zero]
    intro hzero
    exact (free_eq_zero_iff h.size_nodes).mp hzero place (h.size_nodes ▸ hbound) hnone
  refine ⟨Shelf.ext ?_ ?_ ?_, hpos⟩
  · have hfree := free_evict hbound
    rw [hnone, Option.isNone_none, if_pos rfl] at hfree
    omega
  · have hkeys := h.keys_evict htail
    rw [hnone, Option.toList_none, List.append_nil] at hkeys
    exact hkeys.symm
  · funext other
    apply h.known?_evict_of_ne
    intro hplace
    obtain ⟨own, hown, -⟩ := (h.resident other place).mp hplace
    rw [hnone] at hown
    cases hown

/-- **Evicting a key** takes the oldest off the shelf. -/
theorem Sound.shelf_evict_key (h : s.Sound size held none) (hfirst : s.KeyedFirst)
    (htail : s.idle.tail = some place) (hown : (s.node place).key? = some own) :
    s.shelf.free = 0 ∧ s.shelf.idle.getLast? = some own ∧ (s.evict place).shelf =
      { s.shelf.set own none with free := 1, idle := s.shelf.idle.dropLast } := by
  have hbound := h.lt_size_of_tail htail
  have hzero : s.shelf.free = 0 := (free_eq_zero_iff h.size_nodes).mpr
    fun other hother => hfirst.keyed_of_tail h htail hown hother
  have hkeys := h.keys_evict htail
  rw [hown, Option.toList_some] at hkeys
  refine ⟨hzero, by rw [hkeys, List.getLast?_concat], Shelf.ext ?_ ?_ ?_⟩
  · rw [free_evict hbound, hown, hzero]
    rfl
  · show _ = s.shelf.idle.dropLast
    rw [hkeys, List.dropLast_concat]
  · funext other
    show _ = if own == other then none else s.shelf.known? other
    by_cases hsame : own == other
    · rw [if_pos hsame]
      exact h.known?_evict_self ((h.resident other place).mpr ⟨own, hown, hsame⟩)
    · rw [if_neg hsame]
      apply h.known?_evict_of_ne
      intro hplace
      obtain ⟨own', hown', hsame'⟩ := (h.resident other place).mp hplace
      rw [hown] at hown'
      obtain rfl := Option.some.inj hown'
      exact hsame hsame'

/-- **Evicting a node makes room.** -/
theorem Sound.shelf_evict (h : s.Sound size held none) (hfirst : s.KeyedFirst)
    (htail : s.idle.tail = some place) :
    s.shelf.makeRoom? = some (s.evict place).shelf ∧ s.shelf.oldest? = (s.node place).key? := by
  cases hown : (s.node place).key? with
  | none =>
      obtain ⟨hsame, hpos⟩ := h.shelf_evict_keyless htail hown
      exact ⟨by rw [Shelf.makeRoom?, if_pos hpos, hsame], if_neg (Nat.ne_of_gt hpos)⟩
  | some own =>
      obtain ⟨hzero, hlast, hafter⟩ := h.shelf_evict_key hfirst htail hown
      refine ⟨?_, by rw [Shelf.oldest?, if_pos hzero, hlast]⟩
      rw [Shelf.makeRoom?, if_neg (by omega), hlast, hafter]
      rfl

/-- **Filling the node in hand** puts the key on the shelf. -/
theorem Sound.shelf_fill (h : s.Sound size held (some place)) (data : Bytes) :
    (s.fill place key data).shelf = s.shelf.put key data := by
  obtain ⟨hsize, -, hnone⟩ := h.spare place rfl
  have hbound : place < s.nodes.size := h.size_nodes ▸ hsize
  apply Shelf.ext
  · have hfree : (s.fill place key data).shelf.free =
        s.shelf.free - (if (s.node place).key?.isNone then 1 else 0) + 0 := countP_set hbound _
    rw [hfree, hnone]
    rfl
  · apply List.filterMap_congr
    intro p hp
    have hne : place ≠ p := by
      rintro rfl
      exact h.notMem_of_spare hp
    rw [fill_node_of_ne hne]
  · funext other
    show (s.resident.insert key place)[other]?.bind
        (fun p => ((s.fill place key data).node p).known?) =
      if key == other then some ⟨key, data, 1⟩ else s.shelf.known? other
    rw [Std.HashMap.getElem?_insert]
    by_cases hsame : key == other
    · rw [if_pos hsame, if_pos hsame, Option.bind_some, fill_node_self hbound]
      rfl
    · rw [if_neg hsame, if_neg hsame]
      apply Option.bind_congr
      intro p hp
      have hne : place ≠ p := by
        rintro rfl
        obtain ⟨own, hown, -⟩ := (h.resident other place).mp hp
        rw [hnone] at hown
        cases hown
      rw [fill_node_of_ne hne]

/-! ## Gets -/

theorem Sound.evictee?_of_miss (h : s.Sound size held none) (hfirst : s.KeyedFirst)
    (hmiss : s.resident[key]? = none) (htail : s.idle.tail = some place) :
    s.evictee? key = s.shelf.oldest? := by
  rw [Shard.evictee?, hmiss, htail, (h.shelf_evict hfirst htail).2]
  rfl

/-- **A get of a shard is a step of the shelf behind it**: it answers the same,
asks the loader the same and makes the same key leave. -/
theorem Gets.step {s' : Shard K} {load : σ → Except StoreError Bytes × σ} {world : σ}
    {after : σ × List (Except StoreError Bytes)} {answer : Answer} {hit : Bool}
    (hgets : Gets s key (logged load) (world, []) answer hit s' after)
    (h : s.Sound size held none) (hfirst : s.KeyedFirst) :
    s.shelf.Step (.got key after.2 (s.evictee? key) answer.bytes) s'.shelf ∧ s'.KeyedFirst := by
  cases hgets with
  | @hit place hhit =>
      obtain ⟨own, hown, hsame⟩ := (h.resident key place).mp hhit
      have hevictee : s.evictee? key = none := by
        rw [Shard.evictee?, hhit]
      rw [h.shelf_reuse hown, hevictee]
      exact ⟨.hit (h.known?_of_key hown hsame), hfirst.reuse h hown⟩
  | exhausted hmiss hfull =>
      have hevictee : s.evictee? key = none := by
        rw [Shard.evictee?, hmiss, hfull]
        rfl
      rw [hevictee]
      exact ⟨.full (known?_eq_none hmiss) (h.makeRoom?_eq_none hfull), hfirst⟩
  | @loaded place data _ hmiss htail hload =>
      have hspare := h.evict htail
      have hcalls : after.2 = [.ok data] := by
        rw [← (Prod.mk.inj hload).2, ← (Prod.mk.inj hload).1]
      rw [hcalls, h.evictee?_of_miss hfirst hmiss htail, hspare.shelf_fill]
      exact ⟨.loaded data (known?_eq_none hmiss) (h.shelf_evict hfirst htail).1,
        (hfirst.evict h htail).fill hspare data⟩
  | @failed place e _ hmiss htail hload =>
      have hspare := h.evict htail
      have hcalls : after.2 = [.error e] := by
        rw [← (Prod.mk.inj hload).2, ← (Prod.mk.inj hload).1]
      rw [hcalls, h.evictee?_of_miss hfirst hmiss htail, hspare.shelf_abandon]
      exact ⟨.failed e (known?_eq_none hmiss) (h.shelf_evict hfirst htail).1,
        (hfirst.evict h htail).abandon hspare⟩

end

end Shard

end RecordStore.Cache
