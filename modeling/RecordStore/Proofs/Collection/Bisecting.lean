import Mathlib
import RecordStore.Collection.Search

/-!
# What a binary search comes to

Among records that are in order, a search finds one that is equal to what is
looked for if there is one, and otherwise says that there is none
(`search_decides`).  What carries it is that everything given up below is less
and everything given up above is greater (`Narrowed`).

Whatever the records and their order are, a search ends with the first thing
that goes wrong, and with nothing else (`logged_search`).  That is said of a
bisection that writes down what it is told.
-/

namespace RecordStore

/-! ## What a search is told -/

/-- What a search is told by a fetch or by a comparison. -/
inductive Reply (R : Type)
  | fetched (index : UInt32) (result : Except StoreError (Option R))
  | compared (index : UInt32) (result : Except StoreError Ordering)

/-- The error that a fetch or a comparison failed with. -/
def Reply.failure? {R : Type} : Reply R → Option StoreError
  | .fetched _ (.error e) => some e
  | .compared _ (.error e) => some e
  | .fetched _ (.ok _) => none
  | .compared _ (.ok _) => none

/-- Does it leave a search nothing to go on with?  A failure does, a record that
cannot be had, and one that is equal. -/
def Reply.stops {R : Type} : Reply R → Bool
  | .fetched _ (.ok (some _)) => false
  | .compared _ (.ok order) => order == .eq
  | _ => true

namespace Bisection

variable {S R : Type} {b : Bisection S R}

/-- A bisection that also writes down what it is told, the first reply first. -/
def logged (b : Bisection S R) : Bisection (S × List (Reply R)) R where
  fetch := fun index (world, replies) =>
    let (result, world) := b.fetch index world
    (result, (world, replies ++ [.fetched index result]))
  compare := fun index record (world, replies) =>
    let (result, world) := b.compare index record world
    (result, (world, replies ++ [.compared index result]))
  release := fun record (world, replies) => (b.release record world, replies)

/-- What a search comes to when it is told some replies.  It goes on after a
record that is not equal, and can end there. -/
inductive Concludes : Except StoreError (SearchOutcome R) → List (Reply R) → Prop
  | absent : Concludes (.ok .absent) []
  | found (index : UInt32) (record : R) :
      Concludes (.ok (.found index record))
        [.fetched index (.ok (some record)), .compared index (.ok .eq)]
  | refused (index : UInt32) : Concludes (.ok .exhausted) [.fetched index (.ok none)]
  | unfetched (index : UInt32) (e : StoreError) : Concludes (.error e) [.fetched index (.error e)]
  | uncompared (index : UInt32) (record : R) (e : StoreError) :
      Concludes (.error e) [.fetched index (.ok (some record)), .compared index (.error e)]
  | unequal (index : UInt32) (record : R) {order : Ordering}
      {result : Except StoreError (SearchOutcome R)} {replies : List (Reply R)}
      (hne : order ≠ .eq) (h : Concludes result replies) :
      Concludes result
        (.fetched index (.ok (some record)) :: .compared index (.ok order) :: replies)

section

variable {result : Except StoreError (SearchOutcome R)} {replies : List (Reply R)}

theorem Concludes.error_iff (h : Concludes result replies) (e : StoreError) :
    result = .error e ↔ replies.findSome? Reply.failure? = some e := by
  induction h with
  | unequal index record hne h ih => rw [ih]; rfl
  | _ => simp [List.findSome?_cons, Reply.failure?]

theorem Concludes.exhausted_iff (h : Concludes result replies) :
    result = .ok .exhausted ↔ ∃ index, .fetched index (.ok none) ∈ replies := by
  induction h with
  | unequal index record hne h ih => simp [ih]
  | _ => simp

theorem Concludes.pairwise (h : Concludes result replies) :
    replies.Pairwise fun earlier _ => earlier.stops = false := by
  induction h with
  | unequal index record hne h ih =>
      refine List.pairwise_cons.mpr ⟨fun _ _ => rfl, List.pairwise_cons.mpr ⟨fun _ _ => ?_, ih⟩⟩
      exact beq_eq_false_iff_ne.mpr hne
  | _ => simp [Reply.stops]

theorem search_of_lt {lower upper : UInt32} (h : upper < lower) (world : S) :
    b.search lower upper world = (.ok .absent, world) := by
  rw [search, dif_neg (UInt32.not_le.mpr h)]

theorem logged_fetch {index : UInt32} {world after : S} {fetched : Except StoreError (Option R)}
    (h : b.fetch index world = (fetched, after)) (log : List (Reply R)) :
    b.logged.fetch index (world, log) = (fetched, (after, log ++ [.fetched index fetched])) := by
  simp only [logged, h]

theorem logged_compare {index : UInt32} {record : R} {world after : S}
    {compared : Except StoreError Ordering}
    (h : b.compare index record world = (compared, after)) (log : List (Reply R)) :
    b.logged.compare index record (world, log) =
      (compared, (after, log ++ [.compared index compared])) := by
  simp only [logged, h]

/-- **Writing down** what a search is told changes nothing, and what it comes to
follows from what it is told. -/
theorem logged_search (b : Bisection S R) (lower upper : UInt32) (world : S)
    (log : List (Reply R)) : ∃ replies,
      b.logged.search lower upper (world, log) =
        ((b.search lower upper world).1, ((b.search lower upper world).2, log ++ replies)) ∧
      Concludes (b.search lower upper world).1 replies := by
  have hless : Ordering.lt ≠ .eq := by decide
  have hgreater : Ordering.gt ≠ .eq := by decide
  -- Replies are added at the end, so the induction is for every log there is already.
  fun_induction b.search lower upper world generalizing log with
  | case1 lower upper world h e fetched hfetch =>
      refine ⟨_, ?_, .unfetched (middle lower upper) e⟩
      rw [search, dif_pos h, logged_fetch hfetch]
  | case2 lower upper world h fetched hfetch =>
      refine ⟨_, ?_, .refused (middle lower upper)⟩
      rw [search, dif_pos h, logged_fetch hfetch]
  | case3 lower upper world h record fetched hfetch e compared hcompare =>
      refine ⟨_, ?_, .uncompared (middle lower upper) record e⟩
      rw [search, dif_pos h, logged_fetch hfetch]
      simp only [logged_compare hcompare, List.append_assoc]
      rfl
  | case4 lower upper world h record fetched hfetch compared hcompare =>
      refine ⟨_, ?_, .found (middle lower upper) record⟩
      rw [search, dif_pos h, logged_fetch hfetch]
      simp only [logged_compare hcompare, List.append_assoc]
      rfl
  | case5 lower upper world h record fetched hfetch compared hcompare hfirst =>
      refine ⟨_, ?_, .unequal (middle lower upper) record hgreater .absent⟩
      rw [search, dif_pos h, logged_fetch hfetch]
      simp only [logged_compare hcompare, dif_pos hfirst, List.append_assoc]
      rfl
  | case6 lower upper world h record fetched hfetch compared hcompare hfirst ih =>
      obtain ⟨replies, hlogged, hconcludes⟩ := ih (log ++ [_] ++ [_])
      refine ⟨_, ?_, .unequal (middle lower upper) record hgreater hconcludes⟩
      rw [search, dif_pos h, logged_fetch hfetch]
      simp only [logged_compare hcompare, dif_neg hfirst]
      refine hlogged.trans ?_
      simp only [List.append_assoc]
      rfl
  | case7 lower upper world h record fetched hfetch compared hcompare hlast =>
      refine ⟨_, ?_, .unequal (middle lower upper) record hless .absent⟩
      rw [search, dif_pos h, logged_fetch hfetch]
      simp only [logged_compare hcompare, dif_pos hlast, List.append_assoc]
      rfl
  | case8 lower upper world h record fetched hfetch compared hcompare hlast ih =>
      obtain ⟨replies, hlogged, hconcludes⟩ := ih (log ++ [_] ++ [_])
      refine ⟨_, ?_, .unequal (middle lower upper) record hless hconcludes⟩
      rw [search, dif_pos h, logged_fetch hfetch]
      simp only [logged_compare hcompare, dif_neg hlast]
      refine hlogged.trans ?_
      simp only [List.append_assoc]
      rfl
  | case9 lower upper world h =>
      refine ⟨[], ?_, .absent⟩
      rw [search_of_lt (UInt32.not_le.mp h), List.append_nil]

end

/-! ## Records in order -/

/-- Records that are less, then records that are equal, then records that are
greater; there need not be any of them. -/
structure Graded (lower upper : UInt32) (order : UInt32 → Ordering) : Prop where
  less : ∀ {i j}, lower ≤ i → i ≤ j → j ≤ upper → order j = .lt → order i = .lt
  greater : ∀ {i j}, lower ≤ i → i ≤ j → j ≤ upper → order i = .gt → order j = .gt

/-- Above the first of all indices, if it is greater, no record is equal. -/
theorem Graded.ne_eq_of_first {lower upper first : UInt32} {order : UInt32 → Ordering}
    (h : Graded lower upper order) (hlower : lower ≤ first) (hzero : first = 0)
    (hgreater : order first = .gt) (index : UInt32) (_ : lower ≤ index) (hupper : index ≤ upper) :
    order index ≠ .eq := by
  rw [h.greater hlower (hzero ▸ UInt32.zero_le) hupper hgreater]
  decide

/-- Below the last of all indices, if it is less, no record is equal. -/
theorem Graded.ne_eq_of_last {lower upper last : UInt32} {order : UInt32 → Ordering}
    (h : Graded lower upper order) (hupper : last ≤ upper) (hmax : last = 4294967295)
    (hless : order last = .lt) (index : UInt32) (hlower : lower ≤ index) (_ : index ≤ upper) :
    order index ≠ .eq := by
  have hle : index ≤ last := by
    rw [hmax, UInt32.le_iff_toNat_le]
    exact Nat.le_of_lt_succ index.toNat_lt
  rw [h.less hlower hle hupper hless]
  decide

theorem graded_runs (lower upper equal greater : UInt32) :
    Graded lower upper fun index =>
      if index < equal then .lt else if index < greater then .eq else .gt where
  less := by
    intro i j _ hle _ hless
    have hlt : j < equal := by
      by_contra hnot
      rw [if_neg hnot] at hless
      split at hless <;> cases hless
    exact if_pos (UInt32.lt_of_le_of_lt hle hlt)
  greater := by
    intro i j _ hle _ hgreater
    split at hgreater
    · cases hgreater
    · next hequal =>
        split at hgreater
        · cases hgreater
        · next hnot =>
            have hequal' := UInt32.le_trans (UInt32.not_lt.mp hequal) hle
            have hgreater' := UInt32.le_trans (UInt32.not_lt.mp hnot) hle
            rw [if_neg (UInt32.not_lt.mpr hequal'), if_neg (UInt32.not_lt.mpr hgreater')]

/-- The worlds that probing records from `lower` to `upper` leads to. -/
inductive Probed (b : Bisection S R) (lower upper : UInt32) (start : S) : S → Prop
  | start : Probed b lower upper start start
  | probe {world fetched compared : S} {index : UInt32} {record : R} {order : Ordering}
      (h : Probed b lower upper start world) (hlower : lower ≤ index) (hupper : index ≤ upper)
      (hfetch : b.fetch index world = (.ok (some record), fetched))
      (hcompare : b.compare index record fetched = (.ok order, compared)) :
      Probed b lower upper start (b.release record compared)

/-- Wherever probing leads to, every record from `lower` to `upper` can be
fetched, and is compared as `order` says. -/
structure Serves (b : Bisection S R) (lower upper : UInt32) (start : S)
    (holds : UInt32 → R → Prop) (order : UInt32 → Ordering) : Prop where
  fetches : ∀ {world index}, b.Probed lower upper start world → lower ≤ index → index ≤ upper →
    ∃ record fetched, b.fetch index world = (.ok (some record), fetched) ∧ holds index record
  compares : ∀ {world index record fetched}, b.Probed lower upper start world →
    lower ≤ index → index ≤ upper → b.fetch index world = (.ok (some record), fetched) →
      ∃ compared, b.compare index record fetched = (.ok (order index), compared)

/-- A search comes to a record that is equal, or to none when no record is. -/
inductive Decides (lower upper : UInt32) (holds : UInt32 → R → Prop) (order : UInt32 → Ordering) :
    Except StoreError (SearchOutcome R) → Prop
  | found {index : UInt32} {record : R} (hlower : lower ≤ index) (hupper : index ≤ upper)
      (heq : order index = .eq) (hholds : holds index record) :
      Decides lower upper holds order (.ok (.found index record))
  | absent (hne : ∀ index, lower ≤ index → index ≤ upper → order index ≠ .eq) :
      Decides lower upper holds order (.ok .absent)

theorem Decides.of_eq {lower upper : UInt32} {holds : UInt32 → R → Prop}
    {order : UInt32 → Ordering} {result : Except StoreError (SearchOutcome R)}
    (h : Decides lower upper holds order result)
    (hequal : ∃ index, lower ≤ index ∧ index ≤ upper ∧ order index = .eq) :
    ∃ index record, result = .ok (.found index record) ∧ lower ≤ index ∧ index ≤ upper ∧
      order index = .eq ∧ holds index record := by
  cases h with
  | found hlower hupper heq hholds => exact ⟨_, _, rfl, hlower, hupper, heq, hholds⟩
  | absent hne =>
      obtain ⟨index, hlower, hupper, heq⟩ := hequal
      exact absurd heq (hne index hlower hupper)

theorem Decides.of_ne {lower upper : UInt32} {holds : UInt32 → R → Prop}
    {order : UInt32 → Ordering} {result : Except StoreError (SearchOutcome R)}
    (h : Decides lower upper holds order result)
    (hne : ∀ index, lower ≤ index → index ≤ upper → order index ≠ .eq) :
    result = .ok .absent := by
  cases h with
  | found hlower hupper heq _ => exact absurd heq (hne _ hlower hupper)
  | absent => rfl

/-- What is left of a range: everything that was given up below is less, and
everything that was given up above is greater. -/
structure Narrowed (lower upper : UInt32) (order : UInt32 → Ordering)
    (first last : UInt32) : Prop where
  le_first : lower ≤ first
  last_le : last ≤ upper
  below : ∀ {index}, lower ≤ index → index < first → order index = .lt
  above : ∀ {index}, last < index → index ≤ upper → order index = .gt

section

variable {lower upper first last index : UInt32} {order : UInt32 → Ordering}

theorem narrowed_self (lower upper : UInt32) (order : UInt32 → Ordering) :
    Narrowed lower upper order lower upper where
  le_first := UInt32.le_refl lower
  last_le := UInt32.le_refl upper
  below := fun hle hlt => absurd hle (UInt32.not_le.mpr hlt)
  above := fun hlt hle => absurd hle (UInt32.not_le.mpr hlt)

/-- What is left after a record that is less is above it. -/
theorem Narrowed.above_less (h : Narrowed lower upper order first last)
    (hgraded : Graded lower upper order) (hfirst : first ≤ index) (hlast : index ≤ last)
    (hless : order index = .lt) (hne : index ≠ 4294967295) :
    Narrowed lower upper order (index + 1) last where
  le_first := by
    have hlower := UInt32.le_iff_toNat_le.mp (UInt32.le_trans h.le_first hfirst)
    rw [UInt32.le_iff_toNat_le, toNat_succ hne]
    omega
  last_le := h.last_le
  below := by
    intro i hi hlt
    rw [UInt32.lt_iff_toNat_lt, toNat_succ hne] at hlt
    have hle : i ≤ index := UInt32.le_iff_toNat_le.mpr (Nat.le_of_lt_succ hlt)
    exact hgraded.less hi hle (UInt32.le_trans hlast h.last_le) hless
  above := h.above

/-- What is left after a record that is greater is below it. -/
theorem Narrowed.below_greater (h : Narrowed lower upper order first last)
    (hgraded : Graded lower upper order) (hfirst : first ≤ index) (hlast : index ≤ last)
    (hgreater : order index = .gt) (hne : index ≠ 0) :
    Narrowed lower upper order first (index - 1) where
  le_first := h.le_first
  last_le := by
    have hupper := UInt32.le_iff_toNat_le.mp (UInt32.le_trans hlast h.last_le)
    obtain ⟨-, hpred⟩ := toNat_pred hne
    rw [UInt32.le_iff_toNat_le, hpred]
    omega
  below := h.below
  above := by
    intro i hlt hi
    obtain ⟨-, hpred⟩ := toNat_pred hne
    rw [UInt32.lt_iff_toNat_lt, hpred] at hlt
    have hle : index ≤ i := UInt32.le_iff_toNat_le.mpr (by omega)
    exact hgraded.greater (UInt32.le_trans h.le_first hfirst) hle hi hgreater

/-- When nothing is left, no record is equal. -/
theorem Narrowed.ne_eq_of_lt (h : Narrowed lower upper order first last) (hlt : last < first)
    (hlower : lower ≤ index) (hupper : index ≤ upper) : order index ≠ .eq := by
  by_cases hbelow : index < first
  · rw [h.below hlower hbelow]
    decide
  · have hle : first ≤ index := UInt32.not_lt.mp hbelow
    rw [h.above (UInt32.lt_of_lt_of_le hlt hle) hupper]
    decide

end

section

variable {lower upper first last : UInt32} {start world : S} {holds : UInt32 → R → Prop}
  {order : UInt32 → Ordering}

theorem Serves.told {index : UInt32} (h : b.Serves lower upper start holds order)
    (hprobed : b.Probed lower upper start world) (hlower : lower ≤ index) (hupper : index ≤ upper) :
    ∃ record fetched compared, b.fetch index world = (.ok (some record), fetched) ∧
      b.compare index record fetched = (.ok (order index), compared) ∧ holds index record ∧
      b.Probed lower upper start (b.release record compared) := by
  obtain ⟨record, fetched, hfetch, hholds⟩ := h.fetches hprobed hlower hupper
  obtain ⟨compared, hcompare⟩ := h.compares hprobed hlower hupper hfetch
  exact ⟨record, fetched, compared, hfetch, hcompare, hholds,
    hprobed.probe hlower hupper hfetch hcompare⟩

/-- One probe ends a search, or leaves it less. -/
theorem search_step (hserves : b.Serves lower upper start holds order)
    (hgraded : Graded lower upper order) (hprobed : b.Probed lower upper start world)
    (hnarrowed : Narrowed lower upper order first last) (h : first ≤ last) :
    Decides lower upper holds order (b.search first last world).1 ∨
      ∃ first' last' world', b.search first last world = b.search first' last' world' ∧
        b.Probed lower upper start world' ∧ Narrowed lower upper order first' last' ∧
        last'.toNat + 1 - first'.toNat < last.toNat + 1 - first.toNat := by
  obtain ⟨hfirst, hlast⟩ := middle_mem h
  rw [← UInt32.le_iff_toNat_le] at hfirst hlast
  have hlower : lower ≤ middle first last := UInt32.le_trans hnarrowed.le_first hfirst
  have hupper : middle first last ≤ upper := UInt32.le_trans hlast hnarrowed.last_le
  obtain ⟨record, fetched, compared, hfetch, hcompare, hholds, hnext⟩ :=
    hserves.told hprobed hlower hupper
  rw [search, dif_pos h, hfetch]
  simp only [hcompare]
  cases horder : order (middle first last) with
  | eq =>
      left
      exact .found hlower hupper horder hholds
  | gt =>
      -- Nothing is below the first of all indices, and everything above it is greater.
      by_cases hzero : middle first last = 0
      · left
        simp only [dif_pos hzero]
        exact .absent (hgraded.ne_eq_of_first hlower hzero horder)
      · right
        obtain ⟨hpos, hpred⟩ := toNat_pred hzero
        refine ⟨_, _, _, dif_neg hzero, hnext,
          hnarrowed.below_greater hgraded hfirst hlast horder hzero, ?_⟩
        rw [UInt32.le_iff_toNat_le] at hfirst hlast
        omega
  | lt =>
      by_cases hmax : middle first last = 4294967295
      · left
        simp only [dif_pos hmax]
        exact .absent (hgraded.ne_eq_of_last hupper hmax horder)
      · right
        have hsucc := toNat_succ hmax
        refine ⟨_, _, _, dif_neg hmax, hnext,
          hnarrowed.above_less hgraded hfirst hlast horder hmax, ?_⟩
        rw [UInt32.le_iff_toNat_le] at hfirst hlast
        omega

/-- **Among records that are in order**, a search comes to one that is equal if
there is one. -/
theorem search_decides
    (hserves : b.Serves lower upper start holds order) (hgraded : Graded lower upper order)
    (hprobed : b.Probed lower upper start world)
    (hnarrowed : Narrowed lower upper order first last) :
    Decides lower upper holds order (b.search first last world).1 := by
  induction hleft : last.toNat + 1 - first.toNat using Nat.strong_induction_on
    generalizing first last world with
  | _ left ih =>
    by_cases h : first ≤ last
    · rcases search_step hserves hgraded hprobed hnarrowed h with hdone | hless
      · exact hdone
      · obtain ⟨first', last', world', hsearch, hprobed', hnarrowed', hlt⟩ := hless
        rw [hsearch]
        exact ih _ (hleft ▸ hlt) hprobed' hnarrowed' rfl
    · have hlt := UInt32.not_le.mp h
      rw [search_of_lt hlt]
      refine .absent ?_
      intro index hlower hupper
      exact hnarrowed.ne_eq_of_lt hlt hlower hupper

end

end Bisection

end RecordStore
