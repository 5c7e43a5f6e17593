import Mathlib
import RecordStore.Proofs.Collection.Bisecting

/-!
# What a binary search asks for

A search fetches the records that it comes to and no others, each in the world
that the comparisons before it left (`Asks`).  It is exhausted as soon as one of
these fetches comes away empty-handed, it fails as soon as one of these records
cannot be compared (`search_of_refused`, `search_of_uncompared`); and if each of
them is fetched and compared as records in order are, it comes to one that is
equal if there is one (`decides_of_told`), whatever other fetches would come to.
-/

namespace RecordStore

namespace Bisection

variable {S R : Type} {b : Bisection S R}

/-- A search of a range comes to fetch the record with an index, in a world. -/
inductive Asks (b : Bisection S R) : UInt32 → UInt32 → S → UInt32 → S → Prop
  | now {first last : UInt32} {world : S} (h : first ≤ last) :
      Asks b first last world (middle first last) world
  | lowerHalf {first last index : UInt32} {world fetched compared later : S} {record : R}
      (h : first ≤ last)
      (hfetch : b.fetch (middle first last) world = (.ok (some record), fetched))
      (hcompare : b.compare (middle first last) record fetched = (.ok .gt, compared))
      (hne : middle first last ≠ 0)
      (hrest : Asks b first (middle first last - 1) (b.release record compared) index later) :
      Asks b first last world index later
  | upperHalf {first last index : UInt32} {world fetched compared later : S} {record : R}
      (h : first ≤ last)
      (hfetch : b.fetch (middle first last) world = (.ok (some record), fetched))
      (hcompare : b.compare (middle first last) record fetched = (.ok .lt, compared))
      (hne : middle first last ≠ 4294967295)
      (hrest : Asks b (middle first last + 1) last (b.release record compared) index later) :
      Asks b first last world index later

/-- A record that is asked for is fetched and compared, as `order` says. -/
structure Told (b : Bisection S R) (holds : UInt32 → R → Prop) (order : UInt32 → Ordering)
    (index : UInt32) (world : S) : Prop where
  told : ∃ record fetched compared, b.fetch index world = (.ok (some record), fetched) ∧
    b.compare index record fetched = (.ok (order index), compared) ∧ holds index record

section

variable {lower upper first last index : UInt32} {start world later after : S}
  {holds : UInt32 → R → Prop} {order : UInt32 → Ordering}

/-- What is asked for is in the range, and asking is probing. -/
theorem Asks.probed (h : b.Asks first last world index later)
    (hprobed : b.Probed lower upper start world) (hfirst : lower ≤ first) (hlast : last ≤ upper) :
    b.Probed lower upper start later ∧ lower ≤ index ∧ index ≤ upper := by
  induction h with
  | @now first last world h =>
      obtain ⟨hlow, hhigh⟩ := middle_mem h
      rw [← UInt32.le_iff_toNat_le] at hlow hhigh
      exact ⟨hprobed, UInt32.le_trans hfirst hlow, UInt32.le_trans hhigh hlast⟩
  | @lowerHalf first last index world fetched compared later record h hfetch hcompare hne _ ih =>
      obtain ⟨hlow, hhigh⟩ := middle_mem h
      obtain ⟨-, hpred⟩ := toNat_pred hne
      rw [← UInt32.le_iff_toNat_le] at hlow hhigh
      have hbelow : middle first last - 1 ≤ upper := by
        have hupper := UInt32.le_iff_toNat_le.mp (UInt32.le_trans hhigh hlast)
        rw [UInt32.le_iff_toNat_le, hpred]
        omega
      exact ih (hprobed.probe (UInt32.le_trans hfirst hlow) (UInt32.le_trans hhigh hlast) hfetch
        hcompare) hfirst hbelow
  | @upperHalf first last index world fetched compared later record h hfetch hcompare hne _ ih =>
      obtain ⟨hlow, hhigh⟩ := middle_mem h
      have hsucc := toNat_succ hne
      rw [← UInt32.le_iff_toNat_le] at hlow hhigh
      have habove : lower ≤ middle first last + 1 := by
        have hlower := UInt32.le_iff_toNat_le.mp (UInt32.le_trans hfirst hlow)
        rw [UInt32.le_iff_toNat_le, hsucc]
        omega
      exact ih (hprobed.probe (UInt32.le_trans hfirst hlow) (UInt32.le_trans hhigh hlast) hfetch
        hcompare) habove hlast

/-- A search goes on from what it asks for as one that starts there. -/
theorem Asks.search_eq (h : b.Asks first last world index later) :
    ∃ first' last', first' ≤ last' ∧ middle first' last' = index ∧
      b.search first last world = b.search first' last' later := by
  induction h with
  | now h => exact ⟨_, _, h, rfl, rfl⟩
  | lowerHalf h hfetch hcompare hne _ ih =>
      obtain ⟨first', last', hle, hmiddle, hsearch⟩ := ih
      refine ⟨first', last', hle, hmiddle, ?_⟩
      rw [search, dif_pos h, hfetch]
      simp only [hcompare, dif_neg hne]
      exact hsearch
  | upperHalf h hfetch hcompare hne _ ih =>
      obtain ⟨first', last', hle, hmiddle, hsearch⟩ := ih
      refine ⟨first', last', hle, hmiddle, ?_⟩
      rw [search, dif_pos h, hfetch]
      simp only [hcompare, dif_neg hne]
      exact hsearch

/-- **A fetch that comes away empty-handed** exhausts the search. -/
theorem search_of_refused (h : b.Asks first last world index later)
    (hfetch : b.fetch index later = (.ok none, after)) :
    b.search first last world = (.ok .exhausted, after) := by
  obtain ⟨first', last', hle, rfl, hsearch⟩ := h.search_eq
  rw [hsearch, search, dif_pos hle, hfetch]

/-- **A record that cannot be compared** makes the search fail. -/
theorem search_of_uncompared (h : b.Asks first last world index later) {record : R}
    {fetched : S} {e : StoreError} (hfetch : b.fetch index later = (.ok (some record), fetched))
    (hcompare : b.compare index record fetched = (.error e, after)) :
    b.search first last world = (.error e, b.release record after) := by
  obtain ⟨first', last', hle, rfl, hsearch⟩ := h.search_eq
  rw [hsearch, search, dif_pos hle, hfetch]
  simp only [hcompare]

/-- **If all that is asked for is told**, a search among records in order comes to
one that is equal if there is one. -/
theorem decides_of_told (hgraded : Graded lower upper order)
    (hnarrowed : Narrowed lower upper order first last)
    (htold : ∀ {index later}, b.Asks first last world index later →
      b.Told holds order index later) :
    Decides lower upper holds order (b.search first last world).1 := by
  induction hleft : last.toNat + 1 - first.toNat using Nat.strong_induction_on
    generalizing first last world with
  | _ left ih =>
    by_cases h : first ≤ last
    · obtain ⟨record, fetched, compared, hfetch, hcompare, hholds⟩ := (htold (.now h)).told
      obtain ⟨hlow, hhigh⟩ := middle_mem h
      have hfirst := UInt32.le_iff_toNat_le.mpr hlow
      have hlast := UInt32.le_iff_toNat_le.mpr hhigh
      have hlower := UInt32.le_trans hnarrowed.le_first hfirst
      have hupper := UInt32.le_trans hlast hnarrowed.last_le
      rw [search, dif_pos h, hfetch]
      simp only [hcompare]
      cases horder : order (middle first last) with
      | eq => exact .found hlower hupper horder hholds
      | gt =>
          rw [horder] at hcompare
          by_cases hzero : middle first last = 0
          · simp only [dif_pos hzero]
            exact .absent (hgraded.ne_eq_of_first hlower hzero horder)
          · obtain ⟨hpos, hpred⟩ := toNat_pred hzero
            simp only [dif_neg hzero]
            refine ih _ (hleft ▸ ?_)
              (hnarrowed.below_greater hgraded hfirst hlast horder hzero)
              (fun hasks => htold (.lowerHalf h hfetch hcompare hzero hasks)) rfl
            omega
      | lt =>
          rw [horder] at hcompare
          by_cases hmax : middle first last = 4294967295
          · simp only [dif_pos hmax]
            exact .absent (hgraded.ne_eq_of_last hupper hmax horder)
          · have hsucc := toNat_succ hmax
            simp only [dif_neg hmax]
            refine ih _ (hleft ▸ ?_)
              (hnarrowed.above_less hgraded hfirst hlast horder hmax)
              (fun hasks => htold (.upperHalf h hfetch hcompare hmax hasks)) rfl
            omega
    · have hlt := UInt32.not_le.mp h
      rw [search_of_lt hlt]
      refine .absent ?_
      intro index hlower hupper
      exact hnarrowed.ne_eq_of_lt hlt hlower hupper

end

end Bisection

end RecordStore
