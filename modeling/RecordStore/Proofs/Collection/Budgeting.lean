import Mathlib
import RecordStore.Proofs.Collection.RecordSize

/-!
# What is kept in memory

A configuration says how many bytes of a collection may be loaded.  What is
kept are the first bytes of the collection, as many whole records as that allows
(`budget_isGreatest`), and whatever memory does not hold is left to the source
(`Collection.Keeps`).

Also a budget that all of the collection fits in is rounded down to whole
records.  If the length is not a multiple of the size of a record, the bytes
that are left over are not kept, and the collection is not all in memory; nor is
an empty one, of which there is nothing to keep.
-/

namespace RecordStore

/-- The numbers of bytes of a collection that may be kept: no more than
configured, no more than there are, and whole records if they have a size. -/
def CollectionConfig.Keepable (config : CollectionConfig) (layout : Layout) : Set Nat :=
  {n | n ≤ config.loaded.toNat ∧ n ≤ layout.size ∧ (layout.isFixed → layout.elementSize ∣ n)}

/-- A collection that has its first `kept` bytes in memory, and a source for the
rest unless that is all of it. -/
structure Collection.Keeps (c : Collection) (file : DataFile) (header : Header) (kept : Nat) :
    Prop where
  /-- Nothing is loaded if nothing is kept. -/
  resident : c.resident? = if kept = 0 then none else some (.ofFile file header kept)
  /-- What is loaded was in the file. -/
  there : 0 < kept → header.start.toNat + kept ≤ file.contents.length
  /-- Memory is the only tier if it has all of the collection. -/
  alone : c.kinds = ["memory"] ↔ 0 < kept ∧ kept = (Layout.ofHeader header).size
  /-- What memory holds is answered from there at all times, and storage is not
  looked at. -/
  at_hand : ∀ key, c.holds key → ∃ answer, ∀ now, (c.get key).run now = (answer, now)
  /-- Memory alone holds everything. -/
  all_held : c.kinds = ["memory"] → ∀ key, c.holds key
  /-- What memory does not hold is left to the source. -/
  passed : ∀ key, c.holds key = false →
    ∃ source, c.source? = some source ∧ c.get key = source.get (Layout.ofHeader header) key

section

variable {config : CollectionConfig} {header : Header} {storage start : Storage} {c : Collection}
  {position : Nat}

/-- **The budget is used as far as whole records allow.** -/
theorem budget_isGreatest (config : CollectionConfig) (layout : Layout) :
    IsGreatest (config.Keepable layout) (config.budget layout) := by
  unfold CollectionConfig.Keepable CollectionConfig.budget
  simp only
  by_cases hfixed : layout.isFixed
  · have hpos : 0 < layout.elementSize := of_decide_eq_true hfixed
    rw [if_pos hfixed, ← Nat.div_mul_self_eq_mod_sub_self]
    have hle := Nat.div_mul_le_self (min config.loaded.toNat layout.size) layout.elementSize
    refine ⟨⟨hle.trans (min_le_left ..), hle.trans (min_le_right ..), fun _ => ?_⟩, ?_⟩
    · exact Nat.dvd_mul_left ..
    · rintro n ⟨hloaded, hsize, hwhole⟩
      obtain ⟨records, rfl⟩ := hwhole hfixed
      rw [mul_comm] at hloaded hsize ⊢
      exact Nat.mul_le_mul_right _ ((Nat.le_div_iff_mul_le hpos).mpr (le_min hloaded hsize))
  · rw [if_neg hfixed]
    refine ⟨⟨min_le_left .., min_le_right .., fun h => absurd h hfixed⟩, ?_⟩
    rintro n ⟨hloaded, hsize, -⟩
    exact le_min hloaded hsize

/-- Nothing is kept of a collection that nothing is to be loaded of. -/
theorem budget_of_loaded_eq_zero (h : config.loaded = 0) (layout : Layout) :
    config.budget layout = 0 := by
  obtain ⟨⟨hloaded, -, -⟩, -⟩ := budget_isGreatest config layout
  rw [h] at hloaded
  exact Nat.le_zero.mp hloaded

/-- A budget for all of a collection keeps the records that are counted, or
everything if they are not. -/
theorem budget_of_size_le (hfits : header.Fits)
    (h : (Layout.ofHeader header).size ≤ config.loaded.toNat) :
    config.budget (Layout.ofHeader header) =
      if (Layout.ofHeader header).isFixed then
        (Layout.ofHeader header).count * (Layout.ofHeader header).elementSize
      else (Layout.ofHeader header).size := by
  unfold CollectionConfig.budget
  simp only [min_eq_right h]
  split
  · next hfixed => rw [← Nat.div_mul_self_eq_mod_sub_self, hfits hfixed]
  · rfl

/-! ## Opening -/

theorem Collection.kinds_eq_memory_iff : c.kinds = ["memory"] ↔ c.source? = none := by
  obtain ⟨layout, tiers⟩ := c
  cases tiers with
  | memory resident => simp [kinds, source?]
  | both resident source => simp [kinds, source?]
  | file source =>
      simp only [kinds, source?]
      split <;> simp

theorem at_hand_of_holds {key : Key} (h : c.holds key) :
    ∃ answer, ∀ now, (c.get key).run now = (answer, now) := by
  obtain ⟨result, hresult⟩ := get_at_hand h
  exact ⟨_, hresult⟩

/-- **A collection that was opened keeps what its budget says.** -/
theorem keeps_of_ofFile
    (h : Collection.ofFile config header storage = .ok ((c, position), start)) :
    c.Keeps storage.file header (config.budget (Layout.ofHeader header)) := by
  have hall : c.kinds = ["memory"] → ∀ key, c.holds key := fun hkinds key =>
    holds_of_source?_eq_none (Collection.kinds_eq_memory_iff.mp hkinds)
  obtain ⟨-, ⟨hzero, source, rfl, -⟩ | ⟨hpos, hthere, htiers⟩⟩ := tiers_of_ofFile h
  · refine ⟨(if_pos hzero).symm, by omega, ?_, fun _ => at_hand_of_holds, hall,
      fun _ _ => ⟨source, rfl, rfl⟩⟩
    rw [Collection.kinds_eq_memory_iff]
    exact iff_of_false (Option.some_ne_none source) (by omega)
  · obtain ⟨hwhole, -, rfl⟩ | ⟨hpart, source, rfl, -⟩ := htiers
    · refine ⟨(if_neg hpos.ne').symm, fun _ => hthere, ?_, fun _ => at_hand_of_holds, hall,
        fun _ hheld => nomatch hheld⟩
      rw [Collection.kinds_eq_memory_iff]
      exact iff_of_true rfl ⟨hpos, hwhole⟩
    · refine ⟨(if_neg hpos.ne').symm, fun _ => hthere, ?_, fun _ => at_hand_of_holds, hall,
        fun _ hheld => ⟨source, rfl, if_neg (ne_true_of_eq_false hheld)⟩⟩
      rw [Collection.kinds_eq_memory_iff]
      exact iff_of_false (Option.some_ne_none source) fun hwhole => hpart hwhole.2

/-- Memory has a numbered record, sized within the size of a record, if its window
is there. -/
theorem Layout.fixedRecord_ofBytes_isOk_iff {kept element : Nat} {key : Key} (hpos : 0 < element)
    (hsizing : key.sizing.initialBytes.toNat ≤ element) :
    ((Layout.ofBytes kept element).fixedRecord key).isOk ↔
      (key.address.toNat + 1) * element ≤ kept := by
  have hindex : key.address.toNat < kept / element ↔ (key.address.toNat + 1) * element ≤ kept :=
    Nat.le_div_iff_mul_le hpos
  cases hrecord : (Layout.ofBytes kept element).fixedRecord key with
  | ok place =>
      exact iff_of_true rfl (hindex.mp (Layout.fixedRecord_eq_ok_iff.mp hrecord).1)
  | error e =>
      refine iff_of_false (fun h => nomatch h) ?_
      intro hinside
      have hend :
          key.address.toNat * element + max element key.sizing.initialBytes.toNat ≤ kept := by
        rw [max_eq_left hsizing, ← Nat.succ_mul]
        exact hinside
      have hfound : (Layout.ofBytes kept element).fixedRecord key = .ok (_, _) :=
        Layout.fixedRecord_eq_ok_iff.mpr ⟨hindex.mpr hinside, rfl, rfl, hend⟩
      rw [hrecord] at hfound
      cases hfound

/-- Of records of one size, memory holds those that are whole in what is kept. -/
theorem Collection.Keeps.holds_iff {file : DataFile} {kept : Nat} (h : c.Keeps file header kept)
    (hfixed : (Layout.ofHeader header).isFixed) {resident : Resident}
    (hresident : c.resident? = some resident) {key : Key}
    (hsizing : key.sizing.initialBytes.toNat ≤ (Layout.ofHeader header).elementSize) :
    resident.holds key ↔
      (key.address.toNat + 1) * (Layout.ofHeader header).elementSize ≤ kept := by
  rw [h.resident] at hresident
  split at hresident
  · cases hresident
  · next hkept =>
      obtain rfl := Option.some.inj hresident
      have hlength := Resident.length_ofFile (h.there (Nat.pos_of_ne_zero hkept))
      have hpos : 0 < (Layout.ofHeader header).elementSize := of_decide_eq_true hfixed
      have hlocate : (Resident.ofFile file header kept).holds key =
          ((Layout.ofBytes kept (Layout.ofHeader header).elementSize).fixedRecord key).isOk := by
        unfold Resident.holds Resident.ofFile Resident.ofBytes Layout.locate
        rw [hlength]
        exact congrArg _ (if_pos hfixed)
      rw [hlocate]
      exact Layout.fixedRecord_ofBytes_isOk_iff hpos hsizing

/-- **The loading budget.**  A collection is opened with a header that was read
from the file.  The bytes that it keeps in memory are the greatest number that
the budget, the length of the collection and the size of its records allow; of
records of one size memory holds those that are whole in these bytes, and what
it does not hold comes from the source.  Nothing is kept if nothing is to be
loaded.  If the whole collection may be, what is kept are the records that are
counted, and everything if they differ in size; so the collection is all in
memory exactly if it is not empty and has no bytes left over. -/
theorem ofFile_keeps_budget {elementSize : UInt32} {isCount : Bool}
    (hheader : header.ReadFrom storage.file.contents elementSize isCount)
    (hopen : Collection.ofFile config header storage = .ok ((c, position), start)) :
    ∃ kept, IsGreatest (config.Keepable c.layout) kept ∧ c.Keeps storage.file header kept ∧
      (∀ resident key, c.resident? = some resident → c.layout.isFixed →
        key.sizing.initialBytes.toNat ≤ c.elementSize →
          (resident.holds key ↔ (key.address.toNat + 1) * c.elementSize ≤ kept)) ∧
      (config.loaded = 0 → c.resident? = none) ∧
      (c.size ≤ config.loaded.toNat →
        kept = (if c.layout.isFixed then c.count * c.elementSize else c.size) ∧
        (c.kinds = ["memory"] ↔ 0 < c.size ∧ (c.layout.isFixed → c.elementSize ∣ c.size))) := by
  have hkeeps := keeps_of_ofFile hopen
  obtain ⟨source, -, hopened, -⟩ := ofFile_eq_ok hopen
  have hgreatest := budget_isGreatest config (Layout.ofHeader header)
  unfold Collection.size Collection.count Collection.elementSize
  rw [hopened.layout]
  refine ⟨_, hgreatest, hkeeps, ?_, ?_, ?_⟩
  · intro resident key hresident hfixed hsizing
    exact hkeeps.holds_iff hfixed hresident hsizing
  · intro hloaded
    rw [hkeeps.resident, if_pos (budget_of_loaded_eq_zero hloaded _)]
  · intro hsize
    refine ⟨budget_of_size_le hheader.fits hsize, ?_⟩
    rw [hkeeps.alone]
    constructor
    · rintro ⟨hpos, hwhole⟩
      rw [hwhole] at hpos hgreatest
      exact ⟨hpos, hgreatest.1.2.2⟩
    · rintro ⟨hpos, hdvd⟩
      have hwhole := le_antisymm (budget_le config _) (hgreatest.2 ⟨hsize, le_rfl, hdvd⟩)
      exact ⟨hwhole ▸ hpos, hwhole⟩

end

/-- Ten bytes may be loaded of three integers: two are kept. -/
theorem ofFile_keeps_budget_two : ∃ c position start,
    Collection.ofFile ⟨10, 0, 0⟩ ⟨4, 12, 3⟩
        (.over ⟨[12, 0, 0, 0, 1, 2, 3, 4, 5, 6, 7, 8, 9, 10, 11, 12], true⟩ ⟨1, [], 0, 0⟩) =
      .ok ((c, position), start) ∧
    c.kinds = ["memory", "file"] ∧
    c.Keeps ⟨[12, 0, 0, 0, 1, 2, 3, 4, 5, 6, 7, 8, 9, 10, 11, 12], true⟩ ⟨4, 12, 3⟩ 8 := by
  let storage := Storage.over
    ⟨[12, 0, 0, 0, 1, 2, 3, 4, 5, 6, 7, 8, 9, 10, 11, 12], true⟩ ⟨1, [], 0, 0⟩
  have hopen : ∃ c position start,
      Collection.ofFile ⟨10, 0, 0⟩ ⟨4, 12, 3⟩ storage = .ok ((c, position), start) ∧
        c.kinds = ["memory", "file"] ∧ c.layout = ⟨3, 12, 4⟩ := ⟨_, _, _, rfl, rfl, rfl⟩
  obtain ⟨c, position, start, hopen, hkinds, hlayout⟩ := hopen
  have hheader : Header.ofFile ⟨storage.file.contents, true⟩ 0 4 false = .ok (⟨4, 12, 3⟩, 4) := rfl
  obtain ⟨kept, hgreatest, hkeeps, -⟩ := ofFile_keeps_budget ⟨0, .inr ⟨true, 4, hheader⟩⟩ hopen
  rw [hlayout] at hgreatest
  obtain rfl : kept = 8 := hgreatest.unique (budget_isGreatest ⟨10, 0, 0⟩ ⟨3, 12, 4⟩)
  exact ⟨c, position, start, hopen, hkinds, hkeeps⟩

/-- **A budget for all of a collection does not always load it**: nine bytes are
two integers and a byte that is left over, and a record that reaches it is read
with a handle of the pool. -/
theorem ofFile_keeps_left_over : ∃ c position start,
    Header.ofFile ⟨[9, 0, 0, 0, 1, 2, 3, 4, 5, 6, 7, 8, 9], true⟩ 0 4 false =
        .ok (⟨4, 9, 2⟩, 4) ∧
      Collection.ofFile .inMemory ⟨4, 9, 2⟩
          (.over ⟨[9, 0, 0, 0, 1, 2, 3, 4, 5, 6, 7, 8, 9], true⟩ ⟨1, [], 0, 0⟩) =
        .ok ((c, position), start) ∧
      c.size ≤ CollectionConfig.inMemory.loaded.toNat ∧ c.kinds ≠ ["memory"] ∧
      ((c.get ⟨1, .fixed "custom" 5⟩).run start).2.pool ≠ start.pool := by
  refine ⟨_, _, _, rfl, rfl, by decide, by decide, ?_⟩
  decide

end RecordStore
