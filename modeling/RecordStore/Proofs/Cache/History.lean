import Mathlib
import RecordStore.Proofs.Cache.Contents
import RecordStore.Proofs.Cache.ShardShelf
import RecordStore.Proofs.Cache.ShelfRuns

/-!
# Caches with a history

A cache in use with all that is to be known of its use: which references are
out, what they were got for, and what was done so far.  `Used` are the caches
that gets and releases in any order lead to.

Behind each shard of such a cache is a shelf with its history (`Used.runs`).

Equal keys have to be of one shard.  A cache where they are not would hold a
key twice, and neither place would know of the other.
-/

namespace RecordStore.Cache

variable {K : Type} [BEq K] [Hashable K] {σ : Type}

/-! ## Loans -/

/-- A reference that is out, and the key it was got for. -/
structure Loan (K : Type) where
  key : K
  ref : Ref

/-- The references that a get of a key gave out. -/
def loans (key : K) (result : Except StoreError (Option Ref)) : List (Loan K) :=
  match result with
  | .ok (some ref) => [⟨key, ref⟩]
  | .ok none | .error _ => []

omit [BEq K] [Hashable K] in
theorem map_pin_loans (key : K) (result : Except StoreError (Option Ref)) :
    (loans key result).map (·.ref.pin) = pins result := by
  rcases result with _ | _ | _ <;> rfl

theorem bytes_lent (answer : Answer) (place : Nat) :
    (answer.lent place).map (Option.map Ref.data) = answer.bytes := by
  cases answer <;> rfl

/-- The key that a get of a key drops. -/
def evictee? (c : Cache K) (key : K) : Option K :=
  (c.shard (c.shardOf key)).evictee? key

/-- A cache, the references that are out, and what was done so far. -/
structure Usage (K : Type) [BEq K] [Hashable K] where
  cache : Cache K
  out : List (Loan K)
  /-- What was done, the last first. -/
  past : List (Event K)

namespace Usage

/-- The cache and the nodes that are referred to. -/
def lending (u : Usage K) : Lending K :=
  ⟨u.cache, u.out.map (·.ref.pin)⟩

/-- Is a reference to a key out? -/
def Held (u : Usage K) (key : K) : Prop :=
  ∃ loan ∈ u.out, loan.key == key

/-- The state after a get. -/
def get (u : Usage K) (key : K) (load : σ → Except StoreError Bytes × σ) (world : σ) : Usage K :=
  let got := u.cache.get key (logged load) (world, [])
  { cache := got.1.2
    out := loans key got.1.1 ++ u.out
    past := .got key got.2.2 (u.cache.evictee? key) (got.1.1.map (Option.map Ref.data)) :: u.past }

/-- The state after a reference is given back, which leaves `rest`. -/
def release (u : Usage K) (loan : Loan K) (rest : List (Loan K)) : Usage K :=
  ⟨u.cache.release loan.ref.pin, rest, .released loan.key :: u.past⟩

end Usage

/-- The states reached from a cache of which nothing is out.  Every get has a
loader of its own. -/
inductive Used (start : Cache K) : Usage K → Prop
  | start : Used start ⟨start, [], []⟩
  | get {σ : Type} {u : Usage K} (hu : Used start u) (key : K)
      (load : σ → Except StoreError Bytes × σ) (world : σ) : Used start (u.get key load world)
  | release {u : Usage K} (hu : Used start u) {loan : Loan K} {rest : List (Loan K)}
      (hout : u.out.Perm (loan :: rest)) : Used start (u.release loan rest)

/-- Writing down what the loader answers changes nothing. -/
theorem get_logged (c : Cache K) (key : K) (load : σ → Except StoreError Bytes × σ) (world : σ)
    (log : List (Except StoreError Bytes)) :
    (c.get key (logged load) (world, log)).1 = (c.get key load world).1 ∧
      (c.get key (logged load) (world, log)).2.1 = (c.get key load world).2 := by
  unfold Cache.get Shard.get logged
  dsimp only
  cases (c.shard (c.shardOf key)).resident[key]? with
  | some place => exact ⟨rfl, rfl⟩
  | none =>
      cases (c.shard (c.shardOf key)).idle.tail with
      | none => exact ⟨rfl, rfl⟩
      | some place => rcases load world with ⟨e | data, after⟩ <;> exact ⟨rfl, rfl⟩

/-! ## Nodes that are held -/

namespace Shard

variable {s s' : Shard K} {size node place : Nat} {held : Nat → Nat} {key : K} {data : Bytes}
  {load : σ → Except StoreError Bytes × σ} {world after : σ} {answer : Answer} {hit : Bool}

/-- A node has the bytes of a key. -/
def Has (s : Shard K) (place : Nat) (key : K) (data : Bytes) : Prop :=
  ∃ own, (s.node place).key? = some own ∧ own == key ∧ (s.node place).data = data

/-- A get answers with the node that has the bytes of the key. -/
theorem Gets.has [EquivBEq K] (hgets : Gets s key load world (.held node data) hit s' after)
    (h : s.Sound size held none) : s'.Has node key data := by
  cases hgets with
  | hit hhit =>
      obtain ⟨own, hown, hsame⟩ := (h.resident key node).mp hhit
      have hself := reuse_node_self (lt_size_of_key hown)
      exact ⟨own, by rw [hself]; exact hown, hsame, by rw [hself]⟩
  | loaded hmiss htail hload =>
      have hself : ((s.evict node).fill node key data).node node = ⟨some key, data, 1⟩ :=
        fill_node_self (h.lt_size_evict htail)
      exact ⟨key, by rw [hself], BEq.rfl, by rw [hself]⟩

/-- The key that a get drops is that of a node. -/
theorem exists_node_of_evictee? {old : K} (hold : s.evictee? key = some old) :
    ∃ place, (s.node place).key? = some old := by
  unfold Shard.evictee? at hold
  split at hold
  · cases hold
  · obtain ⟨place, -, hown⟩ := Option.bind_eq_some_iff.mp hold
    exact ⟨place, hown⟩

/-- **A node that is held is left alone.** -/
theorem Gets.has_of_held (hgets : Gets s key load world answer hit s' after)
    (h : s.Sound size held none) (hheld : 0 < held place) {other : K}
    (hhas : s.Has place other data) : s'.Has place other data := by
  have htailed : ∀ {node}, s.idle.tail = some node → node ≠ place := by
    rintro node htail rfl
    have hidle := ((h.mem_idle node).mp (h.mem_of_tail htail)).2.1
    rw [h.holders] at hidle
    omega
  cases hgets with
  | @hit node hhit =>
      by_cases hne : node = place
      · obtain ⟨own, hown, hrest⟩ := hhas
        have hself := reuse_node_self (lt_size_of_key hown)
        exact ⟨own, by rw [hne, hself]; exact hown, by rw [hne, hself]; exact hrest⟩
      · rw [Has, reuse_node_of_ne hne]
        exact hhas
  | exhausted hmiss hfull => exact hhas
  | @loaded node fresh _ hmiss htail hload =>
      rw [Has, fill_node_of_ne (htailed htail), evict_node_of_ne (htailed htail)]
      exact hhas
  | @failed node _ _ hmiss htail hload =>
      rw [Has, abandon_node_of_ne (htailed htail), evict_node_of_ne (htailed htail)]
      exact hhas

theorem Has.release (hhas : s.Has place key data) (node : Nat) :
    (s.release node).Has place key data := by
  obtain ⟨own, hown, hsame, hdata⟩ := hhas
  obtain ⟨hkey, hbytes⟩ := release_node s node place
  exact ⟨own, hkey.trans hown, hsame, hbytes.trans hdata⟩

theorem Sound.resident?_eq (h : s.Sound size held none) :
    s.resident? key = s.shelf.data? key := by
  show s.resident[key]?.map _ = (s.resident[key]?.bind _).map Entry.data
  cases hplace : s.resident[key]? with
  | none => rfl
  | some place =>
      obtain ⟨own, hown, -⟩ := (h.resident key place).mp hplace
      simp [Node.known?, hown]

end Shard

/-! ## What stays true -/

/-- Every reference is to a node that has what it was got for. -/
structure Usage.Sound (u : Usage K) (count size : Nat) : Prop where
  lending : u.lending.Sound count size
  first : ∀ place < count, (u.cache.shard place).KeyedFirst
  has : ∀ loan ∈ u.out,
    (u.cache.shard loan.ref.pin.shard).Has loan.ref.pin.node loan.key loan.ref.data

section

variable {u : Usage K} {count size : Nat} {loan : Loan K} {rest : List (Loan K)}

/-- A reference is counted at its node. -/
theorem Usage.pos_of_mem (hloan : loan ∈ u.out) :
    0 < (u.out.map (·.ref.pin)).count (⟨loan.ref.pin.shard, loan.ref.pin.node⟩ : Pin) :=
  List.count_pos_iff.mpr (List.mem_map_of_mem hloan)

theorem Usage.lending_get (u : Usage K) (key : K) (load : σ → Except StoreError Bytes × σ)
    (world : σ) : (u.get key load world).lending = u.lending.get key (logged load) (world, []) := by
  unfold Usage.lending Usage.get Lending.get
  rw [List.map_append, map_pin_loans]

theorem Usage.Sound.release (h : u.Sound count size) (hout : u.out.Perm (loan :: rest)) :
    (u.release loan rest).Sound count size := by
  have hpins : (u.out.map (·.ref.pin)).Perm (loan.ref.pin :: rest.map (·.ref.pin)) :=
    hout.map _
  have hloan : loan ∈ u.out := hout.mem_iff.mpr List.mem_cons_self
  have hlending := (h.lending.of_perm hpins).release List.mem_cons_self
  have hbound : loan.ref.pin.shard < u.cache.shards.size :=
    h.lending.shards ▸ h.lending.inside _ (List.mem_map_of_mem hloan)
  have hshard : ∀ other, (u.cache.release loan.ref.pin).shard other =
      if loan.ref.pin.shard = other then
        (u.cache.shard loan.ref.pin.shard).release loan.ref.pin.node
      else u.cache.shard other := shard_of_shards rfl hbound
  refine ⟨?_, ?_, ?_⟩
  · rw [Lending.release, List.erase_cons_head] at hlending
    exact hlending
  · intro place hplace
    show ((u.cache.release loan.ref.pin).shard place).KeyedFirst
    rw [hshard]
    split
    · next heq =>
        subst heq
        obtain ⟨own, hown, -⟩ := h.has loan hloan
        exact (h.first _ hplace).release (h.lending.shard _ hplace)
          (Usage.pos_of_mem hloan) hown
    · exact h.first place hplace
  · intro other hother
    have hhas := h.has other (hout.mem_iff.mpr (List.mem_cons_of_mem _ hother))
    show ((u.cache.release loan.ref.pin).shard _).Has _ _ _
    rw [hshard]
    split
    · next heq =>
        rw [← heq] at hhas
        exact hhas.release _
    · exact hhas

variable [EquivBEq K] [LawfulHashable K]

theorem Usage.Sound.get (h : u.Sound count size) (hpos : 0 < count) (key : K)
    (load : σ → Except StoreError Bytes × σ) (world : σ) :
    (u.get key load world).Sound count size := by
  have hplace := h.lending.shardOf_lt hpos key
  have hlt : u.cache.shardOf key < count := h.lending.shards ▸ hplace
  have hown := h.lending.shard _ hlt
  obtain ⟨answer, hit, s', hgets, hresult, hshards, -⟩ :=
    get_course u.cache key (logged load) (world, [])
  have hshard : ∀ other, (u.get key load world).cache.shard other =
      if u.cache.shardOf key = other then s' else u.cache.shard other :=
    shard_of_shards hshards hplace
  refine ⟨?_, ?_, ?_⟩
  · rw [Usage.lending_get]
    exact h.lending.get hpos key (logged load) (world, [])
  · intro place hbound
    rw [hshard]
    split
    · exact (hgets.step hown (h.first _ hlt)).2
    · exact h.first place hbound
  · intro loan hloan
    have hcases : loan ∈ loans key (answer.lent (u.cache.shardOf key)) ∨ loan ∈ u.out := by
      rw [← hresult]
      exact List.mem_append.mp hloan
    rw [hshard]
    rcases hcases with hnew | hold
    · cases answer with
      | held node data =>
          obtain rfl := List.mem_singleton.mp hnew
          rw [if_pos rfl]
          exact hgets.has hown
      | exhausted => cases hnew
      | failed e => cases hnew
    · have hhas := h.has loan hold
      split
      · next heq =>
          have hheld := Usage.pos_of_mem hold
          rw [← heq] at hhas hheld
          exact hgets.has_of_held hown hheld hhas
      · exact hhas

end

/-! ## The shelves behind a cache -/

/-- There is nothing on the shelf behind a shard without keys. -/
theorem shelf_ofSize (size : Nat) : (Shard.ofSize size : Shard K).shelf = Shelf.empty size := by
  apply Shelf.ext
  · show (Array.replicate size _).countP _ = size
    simp [Array.countP_replicate]
  · show List.filterMap _ _ = []
    rw [List.filterMap_eq_nil_iff]
    intro place _
    rw [Shard.node_ofSize]
  · funext key
    show (∅ : Std.HashMap K Nat)[key]?.bind _ = none
    simp

theorem shard_create {capacity : UInt32} {concurrency : UInt16} {spread : K → UInt64}
    {start : Cache K} (h : Cache.create capacity concurrency spread = .ok start) {place : Nat}
    (hplace : place < concurrency.toNat) :
    start.shard place = Shard.ofSize (capacity.toNat / concurrency.toNat) := by
  unfold Cache.create at h
  simp only at h
  split at h
  · cases h
  · obtain rfl := Except.ok.inj h
    simp [Cache.shard, Array.getD_eq_getD_getElem?, hplace]

section

variable {capacity : UInt32} {concurrency : UInt16} {spread : K → UInt64} {start : Cache K}
  {u : Usage K} [EquivBEq K] [LawfulHashable K]

/-- What is so in every state. -/
theorem Used.sound (hstart : Cache.create capacity concurrency spread = .ok start)
    (hu : Used start u) :
    u.Sound concurrency.toNat (capacity.toNat / concurrency.toNat) ∧ u.cache.spread = spread := by
  obtain ⟨hsound, hspread, hpos, -⟩ := sound_create hstart
  induction hu with
  | start =>
      refine ⟨⟨hsound, ?_, ?_⟩, hspread⟩
      · intro place hplace
        show (start.shard place).KeyedFirst
        rw [shard_create hstart hplace]
        apply List.pairwise_of_forall
        intro newer older _
        rw [Shard.node_ofSize]
      · intro loan hloan
        cases hloan
  | get _ key load world ih =>
      refine ⟨ih.1.get hpos key load world, ?_⟩
      rw [← ih.2]
      obtain ⟨_, _, _, -, -, -, hsame⟩ := get_course _ key (logged load) (world, [])
      exact hsame
  | release _ hout ih => exact ⟨ih.1.release hout, ih.2⟩

/-- The shard of a key depends on the key alone. -/
theorem Used.shardOf_eq (hstart : Cache.create capacity concurrency spread = .ok start)
    (hu : Used start u) (key : K) :
    u.cache.shardOf key = (spread key).toNat % concurrency.toNat := by
  obtain ⟨hsound, hsame⟩ := hu.sound hstart
  have hshards : u.cache.shards.size = concurrency.toNat := hsound.lending.shards
  rw [shardOf, hsame, hshards]

theorem Used.shardOf_lt (hstart : Cache.create capacity concurrency spread = .ok start)
    (hu : Used start u) (key : K) : u.cache.shardOf key < concurrency.toNat := by
  obtain ⟨-, -, hpos, -⟩ := sound_create hstart
  rw [hu.shardOf_eq hstart]
  exact Nat.mod_lt _ hpos

theorem Used.shard (hstart : Cache.create capacity concurrency spread = .ok start)
    (hu : Used start u) {place : Nat} (hplace : place < concurrency.toNat) :
    (u.cache.shard place).Sound (capacity.toNat / concurrency.toNat)
      (fun node => (u.out.map (·.ref.pin)).count ⟨place, node⟩) none :=
  (hu.sound hstart).1.lending.shard place hplace

omit [EquivBEq K] [LawfulHashable K] in
/-- A reference is to a node of the shard that its key belongs to. -/
theorem Used.shardOf_loan (hu : Used start u) {loan : Loan K} (hloan : loan ∈ u.out) :
    u.cache.shardOf loan.key = loan.ref.pin.shard := by
  induction hu with
  | start => cases hloan
  | @get σ u _ key load world ih =>
      have hsame : (u.get key load world).cache.shardOf loan.key = u.cache.shardOf loan.key :=
        shardOf_get u.cache key loan.key (logged load) (world, [])
      obtain ⟨answer, _, _, -, hresult, -, -⟩ := get_course u.cache key (logged load) (world, [])
      rw [hsame]
      rcases List.mem_append.mp hloan with hnew | hold
      · rw [hresult] at hnew
        cases answer with
        | held node data =>
            obtain rfl := List.mem_singleton.mp hnew
            rfl
        | exhausted => cases hnew
        | failed e => cases hnew
      · exact ih hold
  | @release u _ other rest hout ih =>
      have hsame : (u.release other rest).cache.shardOf loan.key = u.cache.shardOf loan.key :=
        shardOf_release u.cache other.ref.pin loan.key
      rw [hsame]
      exact ih (hout.mem_iff.mpr (List.mem_cons_of_mem _ hloan))

section

variable (hstart : Cache.create capacity concurrency spread = .ok start) (hu : Used start u)

include hstart hu

/-- **A get is a step of the shelf behind the key's shard**, and none of the
others. -/
theorem Used.follows_get (key : K) (load : σ → Except StoreError Bytes × σ) (world : σ)
    (place : Nat) : ∃ event, (u.get key load world).past = event :: u.past ∧
      (u.cache.shard place).shelf.Follows
        (fun key => (spread key).toNat % concurrency.toNat = place) event
        ((u.get key load world).cache.shard place).shelf := by
  obtain ⟨hsound, -⟩ := hu.sound hstart
  have hlt := hu.shardOf_lt hstart key
  have hbound : u.cache.shardOf key < u.cache.shards.size := hsound.lending.shards ▸ hlt
  have hmine := (hu.shardOf_eq hstart key).symm
  obtain ⟨answer, hit, s', hgets, hresult, hshards, -⟩ :=
    get_course u.cache key (logged load) (world, [])
  have hshard : (u.get key load world).cache.shard place =
      if u.cache.shardOf key = place then s' else u.cache.shard place :=
    shard_of_shards hshards hbound place
  have hpast : (u.get key load world).past = .got key
      (u.cache.get key (logged load) (world, [])).2.2 (u.cache.evictee? key) answer.bytes ::
        u.past := by
    rw [← bytes_lent answer (u.cache.shardOf key), ← hresult]
    rfl
  refine ⟨_, hpast, ?_⟩
  rw [hshard]
  by_cases hne : u.cache.shardOf key = place
  · subst hne
    rw [if_pos rfl]
    exact .step hmine (hgets.step (hu.shard hstart hlt) (hsound.first _ hlt)).1
  · rw [if_neg hne]
    refine .elsewhere ?_ ?_
    · intro hkey
      exact hne (hmine.symm.trans hkey)
    · intro old hold hkey
      have hhome : u.cache.shardOf old = u.cache.shardOf key := by
        obtain ⟨node, hown⟩ := Shard.exists_node_of_evictee? hold
        exact hsound.lending.home _ node old hlt hown
      apply hne
      rw [← hhome, hu.shardOf_eq hstart, hkey]

/-- **A release is a step of the shelf behind the key's shard**, and none of the
others. -/
theorem Used.follows_release {loan : Loan K} {rest : List (Loan K)}
    (hout : u.out.Perm (loan :: rest)) {place : Nat} : (u.cache.shard place).shelf.Follows
      (fun key => (spread key).toNat % concurrency.toNat = place) (.released loan.key)
      ((u.release loan rest).cache.shard place).shelf := by
  obtain ⟨hsound, -⟩ := hu.sound hstart
  have hloan : loan ∈ u.out := hout.mem_iff.mpr List.mem_cons_self
  have hlt : loan.ref.pin.shard < concurrency.toNat :=
    hsound.lending.inside _ (List.mem_map_of_mem hloan)
  have hmine : (spread loan.key).toNat % concurrency.toNat = loan.ref.pin.shard := by
    rw [← hu.shardOf_loan hloan, hu.shardOf_eq hstart]
  have hshard : (u.release loan rest).cache.shard place =
      if loan.ref.pin.shard = place then
        (u.cache.shard loan.ref.pin.shard).release loan.ref.pin.node
      else u.cache.shard place :=
    shard_of_shards rfl (hsound.lending.shards ▸ hlt) place
  obtain ⟨own, hown, heq, -⟩ := hsound.has loan hloan
  rw [hshard]
  by_cases hne : loan.ref.pin.shard = place
  · subst hne
    rw [if_pos rfl]
    exact .step hmine ((hu.shard hstart hlt).step_release (Usage.pos_of_mem hloan) hown heq)
  · rw [if_neg hne]
    refine .elsewhere ?_ ?_
    · intro hkey
      exact hne (hmine.symm.trans hkey)
    · intro old hold
      cases hold

end

/-- **Behind every shard is a shelf with the history of the cache.** -/
theorem Used.runs (hstart : Cache.create capacity concurrency spread = .ok start)
    (hu : Used start u) {place : Nat} (hplace : place < concurrency.toNat) :
    Shelf.Runs (capacity.toNat / concurrency.toNat)
      (fun key => (spread key).toNat % concurrency.toNat = place) u.past
      (u.cache.shard place).shelf := by
  induction hu with
  | start =>
      show Shelf.Runs _ _ [] (start.shard place).shelf
      rw [shard_create hstart hplace, shelf_ofSize]
      exact .start
  | get hu key load world ih =>
      obtain ⟨event, hpast, hfollows⟩ := hu.follows_get hstart key load world _
      rw [hpast]
      exact hfollows.runs ih
  | release hu hout ih => exact (hu.follows_release hstart hout).runs ih

variable (hspread : ∀ {a b : K}, a == b → spread a = spread b)

include hspread

theorem Used.resident?_congr (hstart : Cache.create capacity concurrency spread = .ok start)
    (hu : Used start u) {key other : K} (hsame : key == other) :
    u.cache.resident? key = u.cache.resident? other := by
  have hlt := hu.shardOf_lt hstart key
  have hplace : u.cache.shardOf key = u.cache.shardOf other := by
    rw [hu.shardOf_eq hstart, hu.shardOf_eq hstart, hspread hsame]
  rw [resident?, resident?, ← hplace, (hu.shard hstart hlt).resident?_eq,
    (hu.shard hstart hlt).resident?_eq, Shelf.data?,
    (hu.runs hstart hlt).proper.same hsame]
  rfl

/-- **What is in a cache is what was last loaded and has not left since.** -/
theorem Used.resident?_eq (hstart : Cache.create capacity concurrency spread = .ok start)
    (hu : Used start u) (key : K) : u.cache.resident? key = kept? key u.past := by
  have hlt := hu.shardOf_lt hstart key
  rw [← (hu.runs hstart hlt).data?]
  · exact (hu.shard hstart hlt).resident?_eq
  · intro a b hsame hmine
    rw [← hspread hsame]
    exact hmine
  · exact (hu.shardOf_eq hstart key).symm

end

end RecordStore.Cache
