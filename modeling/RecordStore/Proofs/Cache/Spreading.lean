import Mathlib
import RecordStore.Collection.Open
import RecordStore.Proofs.Cache.Consistency

/-!
# How addresses are spread over shards

No two addresses are mixed to one number (`mix_injective`), so the mixed
addresses are all the words that there are, each once.  A shard has as many
addresses as there are words with one remainder
(`ncard_shardOf`): where the shards are a power of two, all have the same
number (`shards_share_addresses`).
-/

namespace RecordStore.Cache

/-- The number that decides the shard of an address is the mixed address. -/
theorem toNat_spread (address : UInt32) :
    (Collection.spread address).toNat = (mix address).toNat :=
  UInt32.toNat_toUInt64 _

theorem spread_injective : Function.Injective fun address => (Collection.spread address).toNat := by
  intro a b h
  simp only [toNat_spread] at h
  exact mix_injective (UInt32.toNat_inj.mp h)

/-- Every word is a mixed address. -/
theorem range_spread : Set.range (fun address => (Collection.spread address).toNat) =
    {n | n < 2 ^ 32} := by
  have hsurjective : Function.Surjective mix := Finite.surjective_of_injective mix_injective
  ext n
  constructor
  · rintro ⟨address, rfl⟩
    exact (toNat_spread address).trans_lt (mix address).toNat_lt
  · intro hn
    obtain ⟨address, haddress⟩ := hsurjective (UInt32.ofNat n)
    refine ⟨address, (toNat_spread address).trans ?_⟩
    rw [haddress, UInt32.toNat_ofNat_of_lt' hn]

/-- **The addresses of a shard**, of any number of them: as many as there are
words with one remainder. -/
theorem ncard_shardOf {c : Cache UInt32} {count place : Nat} (hspread : c.spread = Collection.spread)
    (hcount : c.shards.size = count) (hplace : place < count) :
    {address | c.shardOf address = place}.ncard =
      2 ^ 32 / count + if place < 2 ^ 32 % count then 1 else 0 := by
  have hwords : {address | c.shardOf address = place} =
      Set.preimage (fun address => (Collection.spread address).toNat)
        {n | n < 2 ^ 32 ∧ n % count = place} := by
    ext address
    have hword : (Collection.spread address).toNat < 2 ^ 32 :=
      (toNat_spread address).trans_lt (mix address).toNat_lt
    show (c.spread address).toNat % c.shards.size = place ↔ _
    rw [hspread, hcount]
    exact (and_iff_right hword).symm
  have hfinset : {n | n < 2 ^ 32 ∧ n % count = place} =
      ((Finset.range (2 ^ 32)).filter (· ≡ place [MOD count]) : Set ℕ) := by
    ext n
    simp [Nat.ModEq, Nat.mod_eq_of_lt hplace]
  have hrange : {n | n < 2 ^ 32 ∧ n % count = place} ⊆
      Set.range fun address => (Collection.spread address).toNat := by
    rw [range_spread]
    exact fun n hn => hn.1
  rw [hwords, Set.ncard_preimage_of_injective_subset_range spread_injective hrange, hfinset,
    Set.ncard_coe_finset, ← Nat.count_eq_card_filter_range,
    Nat.count_modEq_card _ (Nat.zero_lt_of_lt hplace), Nat.mod_eq_of_lt hplace]

/-- **No address is lost.**  The mixed addresses are all the words of 32 bits,
each of one address.  So in a cache of records whose shards are a power of two,
at any time, every shard has the same number of addresses. -/
theorem shards_share_addresses :
    Set.BijOn Collection.spread Set.univ {hash | hash.toNat < 2 ^ 32} ∧
    ∀ {capacity : UInt32} {concurrency : UInt16} {start : Cache UInt32} {u : Lending UInt32}
      {k : ℕ}, Cache.create capacity concurrency Collection.spread = .ok start →
      Reachable start u → concurrency.toNat = 2 ^ k → ∀ place < 2 ^ k,
        {address | u.cache.shardOf address = place}.ncard = 2 ^ (32 - k) := by
  refine ⟨⟨?_, ?_, ?_⟩, ?_⟩
  · intro address _
    exact (toNat_spread address).trans_lt (mix address).toNat_lt
  · intro a _ b _ h
    exact spread_injective (congrArg UInt64.toNat h)
  · intro hash hhash
    obtain ⟨address, haddress⟩ := range_spread.ge hhash
    exact ⟨address, Set.mem_univ _, UInt64.toNat_inj.mp haddress⟩
  · intro capacity concurrency start u k hstart hu hk place hplace
    obtain ⟨hsound, hspread⟩ := hu.sound hstart
    have hle : k ≤ 32 := by
      have hlt : 2 ^ k < 2 ^ 16 := hk ▸ concurrency.toNat_lt
      have := (Nat.pow_lt_pow_iff_right (by decide)).mp hlt
      omega
    rw [ncard_shardOf hspread (hsound.shards.trans hk) hplace, Nat.pow_div hle (by decide),
      Nat.mod_eq_zero_of_dvd (pow_dvd_pow 2 hle), if_neg (Nat.not_lt_zero _), Nat.add_zero]

/-- The last of four shards, after a get. -/
theorem shards_share_addresses_four : ∃ (start : Cache UInt32) (u : Lending UInt32),
    Cache.create 16 4 Collection.spread = .ok start ∧ Reachable start u ∧ u.out = [⟨3, 3⟩] ∧
      {address | u.cache.shardOf address = 3}.ncard = 2 ^ 30 := by
  let start : Cache UInt32 := ⟨Array.replicate 4 (Shard.ofSize 4), Collection.spread, 16, 4, 0, 0⟩
  let load : Unit → Except StoreError Bytes × Unit := fun world => (.ok [7], world)
  have hstart : Cache.create 16 4 Collection.spread = .ok start := rfl
  have hu : Reachable start (Lending.get ⟨start, []⟩ 1 load ()) := .get .start 1 load ()
  have hfour : (4 : UInt16).toNat = 2 ^ 2 := rfl
  exact ⟨start, _, hstart, hu, by cbv, shards_share_addresses.2 hstart hu hfour 3 (by decide)⟩

end RecordStore.Cache
