import Mathlib
import RecordStore.Proofs.Cache.ShardSound

/-!
# What can come of asking a shard for a key

`Gets` has one case for each course a get can take; `get_gets` says that there
are no others.  What holds of a shard after a get is read off the cases, so
the body of `Shard.get` is opened here only.
-/

namespace RecordStore.Cache

/-- How many references to a node an answer gives out. -/
def Answer.taken (answer : Answer) (place : Nat) : Nat :=
  match answer with
  | .held node _ => if node = place then 1 else 0
  | .exhausted | .failed _ => 0

namespace Shard

variable {K : Type} [BEq K] [Hashable K] {σ : Type}

/-- The courses a get can take: the key is resident; every node is held; the
key is loaded into the node at the tail; loading fails. -/
inductive Gets (s : Shard K) (key : K) (load : σ → Except StoreError Bytes × σ) (world : σ) :
    Answer → Bool → Shard K → σ → Prop
  | hit {place : Nat} (hhit : s.resident[key]? = some place) :
      Gets s key load world (.held place (s.node place).data) true (s.reuse place).2 world
  | exhausted (hmiss : s.resident[key]? = none) (hfull : s.idle.tail = none) :
      Gets s key load world .exhausted false s world
  | loaded {place : Nat} {data : Bytes} {after : σ} (hmiss : s.resident[key]? = none)
      (htail : s.idle.tail = some place) (hload : load world = (.ok data, after)) :
      Gets s key load world (.held place data) false ((s.evict place).fill place key data) after
  | failed {place : Nat} {e : StoreError} {after : σ} (hmiss : s.resident[key]? = none)
      (htail : s.idle.tail = some place) (hload : load world = (.error e, after)) :
      Gets s key load world (.failed e) false ((s.evict place).abandon place) after

/-- **Every get takes one of the courses.** -/
theorem get_gets (s : Shard K) (key : K) (load : σ → Except StoreError Bytes × σ) (world : σ) :
    Gets s key load world (s.get key load world).1.1 (s.get key load world).1.2.1
      (s.get key load world).1.2.2 (s.get key load world).2 := by
  unfold Shard.get
  cases hresident : s.resident[key]? with
  | some place => exact .hit hresident
  | none =>
      cases htail : s.idle.tail with
      | none => exact .exhausted hresident htail
      | some place =>
          rcases hload : load world with ⟨e | data, after⟩
          · simp only
            exact .failed hresident htail hload
          · simp only
            exact .loaded hresident htail hload

section

variable {s s' : Shard K} {size : Nat} {held : Nat → Nat} {key : K}
  {load : σ → Except StoreError Bytes × σ} {world after : σ} {answer : Answer} {hit : Bool}

/-! ## The nodes after a get -/

/-- A node with a key has kept it, and its bytes, unless the key was loaded
just now. -/
theorem Gets.key_cases (hgets : Gets s key load world answer hit s' after)
    (hsound : s.Sound size held none) {place : Nat} {own : K}
    (hown : (s'.node place).key? = some own) :
    ((s.node place).key? = some own ∧ (s'.node place).data = (s.node place).data) ∨
      (own = key ∧ load world = (.ok (s'.node place).data, after)) := by
  cases hgets with
  | @hit other hhit =>
      left
      by_cases hne : other = place
      · obtain ⟨old, hold, -⟩ := (hsound.resident key other).mp hhit
        rw [← hne, reuse_node_self (lt_size_of_key hold)] at hown ⊢
        exact ⟨hown, rfl⟩
      · rw [reuse_node_of_ne hne] at hown ⊢
        exact ⟨hown, rfl⟩
  | exhausted _ _ => exact .inl ⟨hown, rfl⟩
  | @loaded other data _ hmiss htail hload =>
      by_cases hne : other = place
      · rw [← hne, fill_node_self (hsound.lt_size_evict htail)] at hown ⊢
        exact .inr ⟨(Option.some.inj hown).symm, hload⟩
      · rw [fill_node_of_ne hne, evict_node_of_ne hne] at hown ⊢
        exact .inl ⟨hown, rfl⟩
  | @failed other _ _ hmiss htail hload =>
      by_cases hne : other = place
      · rw [← hne, abandon_node_self (hsound.lt_size_evict htail),
          evict_node_self (hsound.lt_size_of_tail htail)] at hown
        cases hown
      · rw [abandon_node_of_ne hne, evict_node_of_ne hne] at hown ⊢
        exact .inl ⟨hown, rfl⟩

/-- Equal keys are in one node. -/
theorem Sound.place_unique [EquivBEq K] {spare? : Option Nat} (h : s.Sound size held spare?)
    {place other : Nat} {own own' : K} (hown : (s.node place).key? = some own)
    (hown' : (s.node other).key? = some own') (hsame : own == own') :
    place = other := by
  have hplace := (h.resident own' place).mpr ⟨own, hown, hsame⟩
  have hother := (h.resident own' other).mpr ⟨own', hown', BEq.rfl⟩
  rw [hplace] at hother
  exact Option.some.inj hother

variable [EquivBEq K] [LawfulHashable K]

/-- **A get keeps a shard sound**, whatever comes of it. -/
theorem Gets.sound (hgets : Gets s key load world answer hit s' after)
    (hsound : s.Sound size held none) :
    s'.Sound size (fun place => held place + answer.taken place) none := by
  cases hgets with
  | hit hhit => exact hsound.reuse hhit
  | exhausted _ _ => exact hsound
  | loaded hmiss htail _ => exact (hsound.evict htail).fill (hsound.evict_resident_none hmiss) _
  | failed _ htail _ => exact (hsound.evict htail).abandon

/-- There are no more resident keys than nodes. -/
theorem Sound.size_resident_le {spare? : Option Nat} (h : s.Sound size held spare?) :
    s.resident.size ≤ size := by
  have hkeys : s.resident.toList.Pairwise fun a b => (a.1 == b.1) = false :=
    Std.HashMap.distinct_keys_toList
  have hplace : ∀ entry ∈ s.resident.toList, s.resident[entry.1]? = some entry.2 := by
    intro entry hentry
    obtain ⟨key, place⟩ := entry
    exact Std.HashMap.getElem?_eq_some_iff_exists_beq_and_mem_toList.mpr ⟨key, BEq.rfl, hentry⟩
  have hnodup : (s.resident.toList.map Prod.snd).Nodup := by
    rw [List.nodup_iff_pairwise_ne, List.pairwise_map]
    refine hkeys.imp_of_mem ?_
    intro a b ha hb hne heq
    obtain ⟨own, hown, hsame⟩ := (h.resident a.1 a.2).mp (hplace a ha)
    obtain ⟨own', hown', hsame'⟩ := (h.resident b.1 b.2).mp (hplace b hb)
    rw [heq, hown'] at hown
    obtain rfl := Option.some.inj hown
    rw [BEq.trans (BEq.symm hsame) hsame'] at hne
    cases hne
  have hsub : s.resident.toList.map Prod.snd ⊆ List.range size := by
    intro place hmem
    obtain ⟨entry, hentry, rfl⟩ := List.mem_map.mp hmem
    obtain ⟨own, hown, -⟩ := (h.resident _ _).mp (hplace entry hentry)
    exact List.mem_range.mpr (h.size_nodes ▸ lt_size_of_key hown)
  calc s.resident.size = (s.resident.toList.map Prod.snd).length := by
        rw [List.length_map, Std.HashMap.length_toList]
    _ ≤ (List.range size).length := (hnodup.subperm hsub).length_le
    _ = size := List.length_range

end

end Shard

end RecordStore.Cache
