import RecordStore.Collection.Basic

/-!
# Binary search

A range of indices is bisected: the record in the middle is fetched and
compared with what is looked for, and the half it cannot be in is given up.
The comparison may itself fetch records, keep a state of its own, or fail.

* `Bisection.search` ends for every comparison: the range it is left with is
  always shorter.
* Each record is released before the next is fetched, so a search never holds
  more than one; a record that is found is still held.
-/

namespace RecordStore

/-- What a search came to. -/
inductive SearchOutcome (R : Type)
  /-- The record at `index` is what was looked for; it is still held. -/
  | found (index : UInt32) (record : R)
  /-- No record is. -/
  | absent
  /-- A record could not be had because the cache was full of held ones. -/
  | exhausted
  deriving DecidableEq

/-- How records are fetched, compared with what is looked for, and released,
in a world `S` that all three may change. -/
structure Bisection (S R : Type) where
  fetch : UInt32 → S → Except StoreError (Option R) × S
  compare : UInt32 → R → S → Except StoreError Ordering × S
  release : R → S → S

namespace Bisection

/-- The middle of a range, nearer to its lower end. -/
def middle (lower upper : UInt32) : UInt32 :=
  lower + (upper - lower) / 2

/-- Nothing wraps where the middle of a range is formed. -/
theorem toNat_middle {lower upper : UInt32} (h : lower ≤ upper) :
    (middle lower upper).toNat = lower.toNat + (upper.toNat - lower.toNat) / 2 := by
  have h' : lower.toNat ≤ upper.toNat := h
  have bound := upper.toNat_lt
  have difference : (upper - lower).toNat = upper.toNat - lower.toNat :=
    UInt32.toNat_sub_of_le _ _ h
  unfold middle
  rw [UInt32.toNat_add, UInt32.toNat_div, difference]
  exact Nat.mod_eq_of_lt (by simp; omega)

/-- The middle of a range is in it. -/
theorem middle_mem {lower upper : UInt32} (h : lower ≤ upper) :
    lower.toNat ≤ (middle lower upper).toNat ∧ (middle lower upper).toNat ≤ upper.toNat := by
  have h' : lower.toNat ≤ upper.toNat := h
  rw [toNat_middle h]
  omega

/-- Below an index that is not the first there is another. -/
theorem toNat_pred {index : UInt32} (h : index ≠ 0) :
    0 < index.toNat ∧ (index - 1).toNat = index.toNat - 1 := by
  have nonzero : index.toNat ≠ 0 := fun zero => h (UInt32.toNat.inj zero)
  have one_le : (1 : UInt32) ≤ index := UInt32.le_iff_toNat_le.2 (by simp; omega)
  exact ⟨by omega, UInt32.toNat_sub_of_le _ _ one_le⟩

/-- Above an index that is not the last there is another. -/
theorem toNat_succ {index : UInt32} (h : index ≠ 4294967295) :
    (index + 1).toNat = index.toNat + 1 := by
  have not_last : index.toNat ≠ 4294967295 := fun last => h (UInt32.toNat.inj last)
  have bound := index.toNat_lt
  rw [UInt32.toNat_add]
  exact Nat.mod_eq_of_lt (by simp; omega)

/-- Searches the indices from `lower` to `upper`, both included. -/
def search {S R : Type} (b : Bisection S R) (lower upper : UInt32) (world : S) :
    Except StoreError (SearchOutcome R) × S :=
  if _ : lower ≤ upper then
    match b.fetch (middle lower upper) world with
    | (.error e, world) => (.error e, world)
    | (.ok none, world) => (.ok .exhausted, world)
    | (.ok (some record), world) =>
      match b.compare (middle lower upper) record world with
      | (.error e, world) => (.error e, b.release record world)
      | (.ok .eq, world) => (.ok (.found (middle lower upper) record), world)
      | (.ok .gt, world) =>
        if first : middle lower upper = 0 then (.ok .absent, b.release record world)
        else b.search lower (middle lower upper - 1) (b.release record world)
      | (.ok .lt, world) =>
        if last : middle lower upper = 4294967295 then (.ok .absent, b.release record world)
        else b.search (middle lower upper + 1) upper (b.release record world)
  else (.ok .absent, world)
  termination_by upper.toNat + 1 - lower.toNat
  decreasing_by
    · have := middle_mem ‹lower ≤ upper›
      have := toNat_pred first
      omega
    · have := middle_mem ‹lower ≤ upper›
      have := toNat_succ last
      omega

end Bisection

namespace Collection

/-- Searches the records with indices from `lower` to `upper`, both included.
`compare` says how a record is ordered relative to what is looked for, and
may keep a state `σ`. -/
def binarySearch {σ : Type} (c : Collection) (lower upper : UInt32) (sizing : Sizing)
    (compare : UInt32 → Item → σ × Storage → Except StoreError Ordering × (σ × Storage))
    (world : σ × Storage) : Except StoreError (SearchOutcome Item) × (σ × Storage) :=
  let bisection : Bisection (σ × Storage) Item := {
    fetch := fun index (state, storage) =>
      let (result, storage) := c.get ⟨index, sizing⟩ storage
      (result, (state, storage))
    compare
    release := fun item (state, storage) => (state, storage.release item) }
  bisection.search lower upper world

end Collection

end RecordStore
