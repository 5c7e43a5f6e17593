import Mathlib
import RecordStore.Proofs.Checked.Guards
import RecordStore.Proofs.Collection.Searching

/-!
# How much a binary search asks for

Whatever the records are and however they are compared, the indices that a search
probes come from halving a range (`Bisection.Halves`): a probe is the middle of what
is left, and what is left after it lies on one side of it.  So no index is probed
twice, none outside the range, and there are no more of them than the number of
indices has binary digits.

Nothing is assumed of the order of records, so all of this has to come from the
bounds alone.  `Checked.search` is the search as a machine does it, with bounds that
must not leave their words; it comes to the same.
-/

namespace RecordStore

namespace Bisection

variable {S R : Type} {b : Bisection S R}

/-! ## Halving -/

/-- Indices that come from halving a range: the middle, and then indices that come
from halving what is below it or what is above it, if it goes on. -/
inductive Halves : UInt32 → UInt32 → List UInt32 → Prop
  | empty {lower upper : UInt32} (h : upper < lower) : Halves lower upper []
  | last {lower upper : UInt32} (h : lower ≤ upper) : Halves lower upper [middle lower upper]
  | lowerHalf {lower upper : UInt32} {probes : List UInt32} (h : lower ≤ upper)
      (hne : middle lower upper ≠ 0) (hrest : Halves lower (middle lower upper - 1) probes) :
      Halves lower upper (middle lower upper :: probes)
  | upperHalf {lower upper : UInt32} {probes : List UInt32} (h : lower ≤ upper)
      (hne : middle lower upper ≠ 4294967295)
      (hrest : Halves (middle lower upper + 1) upper probes) :
      Halves lower upper (middle lower upper :: probes)

section

variable {lower upper : UInt32} {probes : List UInt32}

theorem Halves.eq_nil (h : Halves lower upper probes) (hlt : upper < lower) : probes = [] := by
  cases h with
  | empty _ => rfl
  | last h | lowerHalf h _ _ | upperHalf h _ _ => exact absurd hlt (UInt32.not_lt.mpr h)

/-- Probes are inside the range. -/
theorem Halves.inside (h : Halves lower upper probes) :
    ∀ index ∈ probes, lower.toNat ≤ index.toNat ∧ index.toNat ≤ upper.toNat := by
  induction h with
  | empty _ => exact fun _ hmem => absurd hmem List.not_mem_nil
  | last h => exact List.forall_mem_singleton.mpr (middle_mem h)
  | @lowerHalf lower upper probes h hne _ ih =>
      have hmiddle := middle_mem h
      have hpred := toNat_pred hne
      refine List.forall_mem_cons.mpr ⟨hmiddle, ?_⟩
      intro index hindex
      have := ih index hindex
      omega
  | @upperHalf lower upper probes h hne _ ih =>
      have hmiddle := middle_mem h
      have hsucc := toNat_succ hne
      refine List.forall_mem_cons.mpr ⟨hmiddle, ?_⟩
      intro index hindex
      have := ih index hindex
      omega

/-- **No index is probed twice**: after a probe, what is left lies on one side of
it. -/
theorem Halves.nodup (h : Halves lower upper probes) : probes.Nodup := by
  induction h with
  | empty _ => exact List.nodup_nil
  | last _ => exact List.nodup_singleton _
  | @lowerHalf lower upper probes h hne hrest ih =>
      refine List.nodup_cons.mpr ⟨?_, ih⟩
      intro hmem
      have hinside := hrest.inside _ hmem
      have hpred := toNat_pred hne
      omega
  | @upperHalf lower upper probes h hne hrest ih =>
      refine List.nodup_cons.mpr ⟨?_, ih⟩
      intro hmem
      have hinside := hrest.inside _ hmem
      have hsucc := toNat_succ hne
      omega

/-- A probe, and those of what is left after it: if that is no more than half of
some number of indices, they are no more than the number has binary digits. -/
theorem Halves.length_succ_le {indices : Nat} (h : Halves lower upper probes)
    (hfew : lower ≤ upper → probes.length ≤ Nat.log 2 (upper.toNat - lower.toNat + 1) + 1)
    (hhalf : 2 * (upper.toNat + 1 - lower.toNat) ≤ indices) :
    probes.length + 1 ≤ Nat.log 2 indices + 1 := by
  by_cases hle : lower ≤ upper
  · have hrange : lower.toNat ≤ upper.toNat := UInt32.le_iff_toNat_le.mp hle
    have hlog : Nat.log 2 indices = Nat.log 2 (indices / 2) + 1 :=
      Nat.log_of_one_lt_of_le one_lt_two (by omega)
    have hmono : Nat.log 2 (upper.toNat - lower.toNat + 1) ≤ Nat.log 2 (indices / 2) :=
      Nat.log_mono_right (by omega)
    have := hfew hle
    omega
  · rw [h.eq_nil (UInt32.not_le.mp hle)]
    exact Nat.le_add_left 1 _

/-- **There are few probes**, since each leaves no more than half of the range. -/
theorem Halves.length_le (h : Halves lower upper probes) (hle : lower ≤ upper) :
    probes.length ≤ Nat.log 2 (upper.toNat - lower.toNat + 1) + 1 := by
  induction h with
  | empty h => exact absurd hle (UInt32.not_le.mpr h)
  | last _ => exact Nat.le_add_left 1 _
  | lowerHalf h hne hrest ih =>
      have hmiddle := toNat_middle h
      have hpred := toNat_pred hne
      exact hrest.length_succ_le ih (by omega)
  | upperHalf h hne hrest ih =>
      have hrange := UInt32.le_iff_toNat_le.mp h
      have hmiddle := toNat_middle h
      have hsucc := toNat_succ hne
      exact hrest.length_succ_le ih (by omega)

end

/-! ## The probes of a search -/

/-- A view of the world that shows which indices were fetched, in order, and that
nothing but a fetch changes. -/
structure Shows (b : Bisection S R) (fetched : S → List UInt32) : Prop where
  fetch : ∀ index world, fetched (b.fetch index world).2 = fetched world ++ [index]
  compare : ∀ index record world, fetched (b.compare index record world).2 = fetched world
  release : ∀ record world, fetched (b.release record world) = fetched world

section

variable {fetched : S → List UInt32} {index : UInt32} {record : R} {world after compared : S}

theorem Shows.of_fetch (h : b.Shows fetched) {result : Except StoreError (Option R)}
    (hfetch : b.fetch index world = (result, after)) :
    fetched after = fetched world ++ [index] := by
  have hshown := h.fetch index world
  rwa [hfetch] at hshown

theorem Shows.of_compare (h : b.Shows fetched) {result : Except StoreError (Option R)}
    {order : Except StoreError Ordering} (hfetch : b.fetch index world = (result, after))
    (hcompare : b.compare index record after = (order, compared)) :
    fetched compared = fetched world ++ [index] := by
  have hshown := h.compare index record after
  rw [hcompare] at hshown
  exact hshown.trans (h.of_fetch hfetch)

theorem Shows.of_release (h : b.Shows fetched) {result : Except StoreError (Option R)}
    {order : Except StoreError Ordering} (hfetch : b.fetch index world = (result, after))
    (hcompare : b.compare index record after = (order, compared)) :
    fetched (b.release record compared) = fetched world ++ [index] :=
  (h.release record compared).trans (h.of_compare hfetch hcompare)

end

/-- **A search halves its range**, whatever it is told. -/
theorem Shows.search {fetched : S → List UInt32} (hshows : b.Shows fetched)
    (lower upper : UInt32) (world : S) : ∃ probes, Halves lower upper probes ∧
      fetched (b.search lower upper world).2 = fetched world ++ probes := by
  fun_induction b.search lower upper world with
  | case1 lower upper world h e after hfetch =>
      exact ⟨_, .last h, hshows.of_fetch hfetch⟩
  | case2 lower upper world h after hfetch =>
      exact ⟨_, .last h, hshows.of_fetch hfetch⟩
  | case3 lower upper world h record after hfetch e compared hcompare =>
      exact ⟨_, .last h, hshows.of_release hfetch hcompare⟩
  | case4 lower upper world h record after hfetch compared hcompare =>
      exact ⟨_, .last h, hshows.of_compare hfetch hcompare⟩
  | case5 lower upper world h record after hfetch compared hcompare hfirst =>
      exact ⟨_, .last h, hshows.of_release hfetch hcompare⟩
  | case6 lower upper world h record after hfetch compared hcompare hfirst ih =>
      obtain ⟨probes, hprobes, hlater⟩ := ih
      refine ⟨_, .lowerHalf h hfirst hprobes, ?_⟩
      rw [hlater, hshows.of_release hfetch hcompare, List.append_assoc, List.singleton_append]
  | case7 lower upper world h record after hfetch compared hcompare hlast =>
      exact ⟨_, .last h, hshows.of_release hfetch hcompare⟩
  | case8 lower upper world h record after hfetch compared hcompare hlast ih =>
      obtain ⟨probes, hprobes, hlater⟩ := ih
      refine ⟨_, .upperHalf h hlast hprobes, ?_⟩
      rw [hlater, hshows.of_release hfetch hcompare, List.append_assoc, List.singleton_append]
  | case9 lower upper world h =>
      exact ⟨[], .empty (UInt32.not_le.mp h), (List.append_nil _).symm⟩

end Bisection

/-- The index that a fetch was for. -/
def Reply.probed? {R : Type} : Reply R → Option UInt32
  | .fetched index _ => some index
  | .compared _ _ => none

/-- The indices that a search probed, by what it was told. -/
def probes {R : Type} (replies : List (Reply R)) : List UInt32 :=
  replies.filterMap Reply.probed?

theorem Bisection.shows_logged {S R : Type} (b : Bisection S R) :
    b.logged.Shows fun world => probes world.2 where
  fetch index world := by
    unfold logged probes
    rw [List.filterMap_append]
    rfl
  compare index record world := by
    unfold logged probes
    rw [List.filterMap_append]
    exact List.append_nil _
  release _ _ := rfl

/-! ## Bounds in words -/

namespace Checked

open Bisection (toNat_middle toNat_pred toNat_succ)

variable {S R : Type}

/-- The middle of a range, as a machine forms it. -/
def middle (lower upper : Nat) : Checked Nat := do
  let width ← minus upper lower
  word 32 (lower + width / 2)

theorem middle_eq_ok {lower upper index : Nat} (h : middle lower upper = .ok index) :
    lower ≤ index ∧ index ≤ upper := by
  obtain ⟨width, hwidth, hindex⟩ := bind_eq_ok_iff.mp h
  obtain ⟨hle, rfl⟩ := minus_eq_ok hwidth
  have hvalue := word_eq_ok hindex
  omega

/-- Searches the indices from `lower` to `upper`, both included, with bounds in words
of 32 bits.  At either end of them the search ends before a bound would be moved
past it. -/
def search (b : Bisection S R) (lower upper : Nat) (world : S) :
    Checked (Except StoreError (SearchOutcome R) × S) :=
  if lower ≤ upper then
    match _ : middle lower upper with
    | .error fault => .error fault
    | .ok middle =>
      match b.fetch (UInt32.ofNat middle) world with
      | (.error e, world) => .ok (.error e, world)
      | (.ok none, world) => .ok (.ok .exhausted, world)
      | (.ok (some record), world) =>
        match b.compare (UInt32.ofNat middle) record world with
        | (.error e, world) => .ok (.error e, b.release record world)
        | (.ok .eq, world) => .ok (.ok (.found (UInt32.ofNat middle) record), world)
        | (.ok .gt, world) =>
          if middle = 0 then .ok (.ok .absent, b.release record world)
          else
            match _ : minus middle 1 with
            | .error fault => .error fault
            | .ok below => search b lower below (b.release record world)
        | (.ok .lt, world) =>
          if middle = 4294967295 then .ok (.ok .absent, b.release record world)
          else
            match _ : word 32 (middle + 1) with
            | .error fault => .error fault
            | .ok above => search b above upper (b.release record world)
  else .ok (.ok .absent, world)
  termination_by upper + 1 - lower
  decreasing_by
    · have := middle_eq_ok ‹Checked.middle lower upper = .ok middle›
      have := minus_eq_ok ‹minus middle 1 = .ok below›
      omega
    · have := middle_eq_ok ‹Checked.middle lower upper = .ok middle›
      have := word_eq_ok ‹word 32 (middle + 1) = .ok above›
      omega

theorem middle_of_le {lower upper : UInt32} (h : lower ≤ upper) :
    middle lower.toNat upper.toNat = .ok (Bisection.middle lower upper).toNat := by
  have hrange : lower.toNat ≤ upper.toNat := UInt32.le_iff_toNat_le.mp h
  have hvalue := toNat_middle h
  have hword := (Bisection.middle lower upper).toNat_lt
  unfold middle
  rw [bind_of_eq (minus_of_le hrange), ← hvalue]
  exact word_of_lt hword

/-- One round of the search, in which neither the middle of the range nor the bound
that is moved next to it leaves its word. -/
theorem search_of_le (b : Bisection S R) {lower upper : UInt32} (h : lower ≤ upper) (world : S) :
    search b lower.toNat upper.toNat world =
      match b.fetch (Bisection.middle lower upper) world with
      | (.error e, world) => .ok (.error e, world)
      | (.ok none, world) => .ok (.ok .exhausted, world)
      | (.ok (some record), world) =>
        match b.compare (Bisection.middle lower upper) record world with
        | (.error e, world) => .ok (.error e, b.release record world)
        | (.ok .eq, world) => .ok (.ok (.found (Bisection.middle lower upper) record), world)
        | (.ok .gt, world) =>
          if Bisection.middle lower upper = 0 then .ok (.ok .absent, b.release record world)
          else search b lower.toNat (Bisection.middle lower upper - 1).toNat
            (b.release record world)
        | (.ok .lt, world) =>
          if Bisection.middle lower upper = 4294967295 then
            .ok (.ok .absent, b.release record world)
          else search b (Bisection.middle lower upper + 1).toNat upper.toNat
            (b.release record world) := by
  rw [search, if_pos (UInt32.le_iff_toNat_le.mp h), middle_of_le h]
  simp only [UInt32.ofNat_toNat]
  rcases b.fetch (Bisection.middle lower upper) world with ⟨e | _ | record, after⟩
  · rfl
  · rfl
  · simp only
    rcases b.compare (Bisection.middle lower upper) record after with ⟨e | _ | _ | _, compared⟩
    · rfl
    · simp only
      by_cases hlast : Bisection.middle lower upper = 4294967295
      · have hmax : (Bisection.middle lower upper).toNat = 4294967295 :=
          congrArg UInt32.toNat hlast
        rw [if_pos hmax, if_pos hlast]
      · have hnot : (Bisection.middle lower upper).toNat ≠ 4294967295 :=
          fun hmax => hlast (UInt32.toNat.inj hmax)
        -- Its middle is not the last index, so the one above it is in its word.
        have hsucc := toNat_succ hlast
        have hword := (Bisection.middle lower upper + 1).toNat_lt
        have habove := word_of_lt (hsucc ▸ hword)
        rw [if_neg hnot, if_neg hlast, habove, hsucc]
    · rfl
    · simp only
      by_cases hfirst : Bisection.middle lower upper = 0
      · have hzero : (Bisection.middle lower upper).toNat = 0 := congrArg UInt32.toNat hfirst
        rw [if_pos hzero, if_pos hfirst]
      · obtain ⟨hpos, hpred⟩ := toNat_pred hfirst
        rw [if_neg (Nat.ne_of_gt hpos), if_neg hfirst, minus_of_le hpos, hpred]

/-- **No bound leaves its words**: on a machine, a search is what it is without
bounds. -/
theorem search_eq (b : Bisection S R) (lower upper : UInt32) (world : S) :
    search b lower.toNat upper.toNat world = .ok (b.search lower upper world) := by
  fun_induction b.search lower upper world with
  | case1 lower upper world h e after hfetch =>
      rw [search_of_le b h, hfetch]
  | case2 lower upper world h after hfetch =>
      rw [search_of_le b h, hfetch]
  | case3 lower upper world h record after hfetch e compared hcompare =>
      rw [search_of_le b h, hfetch]
      simp only [hcompare]
  | case4 lower upper world h record after hfetch compared hcompare =>
      rw [search_of_le b h, hfetch]
      simp only [hcompare]
  | case5 lower upper world h record after hfetch compared hcompare hfirst =>
      rw [search_of_le b h, hfetch]
      simp only [hcompare, if_pos hfirst]
  | case6 lower upper world h record after hfetch compared hcompare hfirst ih =>
      rw [search_of_le b h, hfetch]
      simp only [hcompare, if_neg hfirst]
      exact ih
  | case7 lower upper world h record after hfetch compared hcompare hlast =>
      rw [search_of_le b h, hfetch]
      simp only [hcompare, if_pos hlast]
  | case8 lower upper world h record after hfetch compared hcompare hlast ih =>
      rw [search_of_le b h, hfetch]
      simp only [hcompare, if_neg hlast]
      exact ih
  | case9 lower upper world h =>
      rw [search, if_neg (mt UInt32.le_iff_toNat_le.mpr h)]

end Checked

/-! ## Searches of a collection -/

/-- **A search probes each index once, and few of them**, whichever indices are searched
and however records are compared: the comparison may contradict itself, keep a state,
read the store or fail.  On a machine no bound that it moves leaves its word. -/
theorem Collection.binarySearch_bounded {σ : Type} (c : Collection) (lower upper : UInt32)
    (sizing : Sizing)
    (compare : UInt32 → Item → σ × Storage → Except StoreError Ordering × (σ × Storage))
    (start : σ × Storage) : ∃ result finish replies,
      c.binarySearch lower upper sizing compare start = (result, finish) ∧
      (c.bisection sizing compare).logged.search lower upper (start, []) =
        (result, (finish, replies)) ∧
      (probes replies).Nodup ∧
      (∀ index ∈ probes replies, lower ≤ index ∧ index ≤ upper) ∧
      (probes replies).length ≤
        (if lower ≤ upper then Nat.log 2 (upper.toNat - lower.toNat + 1) + 1 else 0) ∧
      Checked.search (c.bisection sizing compare) lower.toNat upper.toNat start =
        .ok (result, finish) := by
  let b := c.bisection sizing compare
  obtain ⟨replies, hlogged, -⟩ := b.logged_search lower upper start []
  rw [List.nil_append] at hlogged
  obtain ⟨asked, hhalves, hasked⟩ := b.shows_logged.search lower upper (start, [])
  have hprobes : probes replies = asked := by
    rw [hlogged] at hasked
    exact hasked
  refine ⟨_, _, replies, rfl, hlogged, ?_⟩
  rw [hprobes]
  refine ⟨hhalves.nodup, hhalves.inside, ?_, Checked.search_eq b lower upper start⟩
  split
  · exact hhalves.length_le ‹_›
  · rw [hhalves.eq_nil (UInt32.not_le.mp ‹_›)]
    exact Nat.le_refl 0

end RecordStore
