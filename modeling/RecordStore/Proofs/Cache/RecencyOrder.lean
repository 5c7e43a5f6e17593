import Mathlib
import RecordStore.Cache.Recency

/-!
# The order behind a recency list

`Recency.Lists` says which places a recency list runs through, in which order,
and that the two directions of its links agree.  Linking a place puts it at an
end of the order, unlinking takes it out, and nothing else changes
(`Lists.linkHead`, `Lists.linkTail`, `Lists.unlink`).

Walking the links from either end gives the order or its reverse, and a walk
ends by itself, however long it may go on (`Lists.walk_older`).
-/

namespace RecordStore.Cache.Recency

variable {r : Recency} {order : List Nat} {place other : Nat}

/-- A recency list runs through some places, from the most recent on: its ends
are theirs, and each place is linked to those next to it. -/
structure Lists (r : Recency) (order : List Nat) : Prop where
  head : r.head = order.head?
  tail : r.tail = order.getLast?
  nodup : order.Nodup
  inside : ∀ place ∈ order, place < r.links.size
  link : ∀ front place back, order = front ++ place :: back →
    r.link place = ⟨front.getLast?, back.head?⟩

/-! ## Single links -/

@[simp] theorem size_setNewer (place? newer : Option Nat) :
    (r.setNewer place? newer).links.size = r.links.size := by
  cases place? <;> simp [setNewer]

@[simp] theorem size_setOlder (place? older : Option Nat) :
    (r.setOlder place? older).links.size = r.links.size := by
  cases place? <;> simp [setOlder]

theorem link_setNewer_of_ne {place? newer : Option Nat} (h : place? ≠ some other) :
    (r.setNewer place? newer).link other = r.link other := by
  cases place? with
  | none => rfl
  | some place =>
      have hne : place ≠ other := fun heq => h (by rw [heq])
      simp [setNewer, Recency.link, Array.getD_eq_getD_getElem?, Array.getElem?_modify, hne]

theorem link_setNewer_self {newer : Option Nat} (h : place < r.links.size) :
    (r.setNewer (some place) newer).link place = ⟨newer, (r.link place).older⟩ := by
  simp [setNewer, Recency.link, Array.getD_eq_getD_getElem?, Array.getElem_modify, h]

theorem link_setOlder_of_ne {place? older : Option Nat} (h : place? ≠ some other) :
    (r.setOlder place? older).link other = r.link other := by
  cases place? with
  | none => rfl
  | some place =>
      have hne : place ≠ other := fun heq => h (by rw [heq])
      simp [setOlder, Recency.link, Array.getD_eq_getD_getElem?, Array.getElem?_modify, hne]

theorem link_setOlder_self {older : Option Nat} (h : place < r.links.size) :
    (r.setOlder (some place) older).link place = ⟨(r.link place).newer, older⟩ := by
  simp [setOlder, Recency.link, Array.getD_eq_getD_getElem?, Array.getElem_modify, h]

theorem link_set_of_ne {value : Link} {head tail : Option Nat} (h : place ≠ other) :
    (⟨r.links.setIfInBounds place value, head, tail⟩ : Recency).link other = r.link other := by
  simp [Recency.link, Array.getD_eq_getD_getElem?, h]

theorem link_set_self {value : Link} {head tail : Option Nat} (h : place < r.links.size) :
    (⟨r.links.setIfInBounds place value, head, tail⟩ : Recency).link place = value := by
  simp [Recency.link, Array.getD_eq_getD_getElem?, h]

/-! ## Linking and unlinking -/

/-- Cutting a list without repetitions at a place of it leaves the place on
neither side. -/
theorem Lists.notMem_of_split {front back : List Nat} (h : r.Lists (front ++ place :: back)) :
    place ∉ front ∧ place ∉ back := by
  have hnodup := h.nodup
  rw [List.nodup_append] at hnodup
  obtain ⟨-, hback, hapart⟩ := hnodup
  refine ⟨?_, (List.nodup_cons.mp hback).1⟩
  intro hmem
  exact hapart place hmem place List.mem_cons_self rfl

/-- **Linking at the head** puts a new place before all others. -/
theorem Lists.linkHead (h : r.Lists order) (hsize : place < r.links.size)
    (hnew : place ∉ order) : (r.linkHead place).Lists (place :: order) := by
  have hhead := h.head
  refine ⟨rfl, ?_, List.nodup_cons.mpr ⟨hnew, h.nodup⟩, ?_, ?_⟩
  · cases order with
    | nil => simp [Recency.linkHead, setNewer, hhead]
    | cons first rest =>
        have htail := h.tail
        simp [Recency.linkHead, setNewer, hhead, htail]
  · intro other hother
    have hsizes : (r.linkHead place).links.size = r.links.size := by
      simp [Recency.linkHead]
    rw [hsizes]
    rcases List.mem_cons.mp hother with rfl | hmem
    · exact hsize
    · exact h.inside other hmem
  · intro front other back hsplit
    show (setNewer _ r.head (some place)).link other = _
    cases front with
    | nil =>
        obtain ⟨rfl, rfl⟩ := List.cons.inj hsplit
        have hne : r.head ≠ some place := by
          rw [hhead]
          intro heq
          exact hnew (List.mem_of_head? heq)
        rw [link_setNewer_of_ne hne, link_set_self hsize, hhead]
        rfl
    | cons first front =>
        obtain ⟨rfl, rfl⟩ := List.cons.inj hsplit
        have hmem : other ∈ front ++ other :: back := by simp
        have hne : place ≠ other := fun heq => hnew (heq ▸ hmem)
        have hlink := h.link front other back rfl
        cases front with
        | nil =>
            have hfirst : r.head = some other := hhead
            have hinside : other < (r.links.setIfInBounds place ⟨.none, r.head⟩).size := by
              simpa using h.inside other hmem
            rw [hfirst] at hinside ⊢
            rw [link_setNewer_self hinside, link_set_of_ne hne, hlink]
            rfl
        | cons second front =>
            have hother : r.head ≠ some other := by
              rw [hhead]
              intro heq
              have hsecond : second = other := Option.some.inj heq
              exact h.notMem_of_split.1 (hsecond ▸ List.mem_cons_self)
            rw [link_setNewer_of_ne hother, link_set_of_ne hne, hlink]
            rfl

/-- **Linking at the tail** puts a new place after all others. -/
theorem Lists.linkTail (h : r.Lists order) (hsize : place < r.links.size)
    (hnew : place ∉ order) : (r.linkTail place).Lists (order ++ [place]) := by
  have htail := h.tail
  refine ⟨?_, by rw [List.getLast?_append]; rfl, ?_, ?_, ?_⟩
  · cases hlast : order.getLast? with
    | none =>
        have hnil := List.getLast?_eq_none_iff.mp hlast
        rw [hlast] at htail
        simp [Recency.linkTail, setOlder, htail, hnil]
    | some last =>
        have hhead := h.head
        rw [hlast] at htail
        have hne : order ≠ [] := by
          intro hnil
          rw [hnil] at hlast
          cases hlast
        simp [Recency.linkTail, setOlder, htail, hhead, List.head?_append_of_ne_nil _ hne]
  · rw [List.nodup_append]
    refine ⟨h.nodup, List.nodup_singleton place, ?_⟩
    intro a ha b hb heq
    rw [List.mem_singleton.mp hb] at heq
    exact hnew (heq ▸ ha)
  · intro other hother
    have hsizes : (r.linkTail place).links.size = r.links.size := by
      simp [Recency.linkTail]
    rw [hsizes]
    rcases List.mem_append.mp hother with hmem | hmem
    · exact h.inside other hmem
    · rw [List.mem_singleton.mp hmem]
      exact hsize
  · intro front other back hsplit
    show (setOlder _ r.tail (some place)).link other = _
    rcases List.eq_nil_or_concat back with rfl | ⟨middle, last, rfl⟩
    · obtain ⟨rfl, hlast⟩ := List.append_inj' hsplit rfl
      obtain rfl := (List.cons.inj hlast).1
      have hne : r.tail ≠ some place := by
        rw [htail]
        intro heq
        exact hnew (List.mem_of_getLast? heq)
      rw [link_setOlder_of_ne hne, link_set_self hsize, htail]
      rfl
    · have hsplit' : order ++ [place] = (front ++ other :: middle) ++ [last] := by
        simpa using hsplit
      obtain ⟨rfl, hlast⟩ := List.append_inj' hsplit' rfl
      obtain rfl := (List.cons.inj hlast).1
      have hmem : other ∈ front ++ other :: middle := by simp
      have hne : place ≠ other := fun heq => hnew (heq ▸ hmem)
      have hlink := h.link front other middle rfl
      rcases List.eq_nil_or_concat middle with rfl | ⟨rest, final, rfl⟩
      · have hfinal : r.tail = some other := by simpa using htail
        have hinside : other < (r.links.setIfInBounds place ⟨r.tail, .none⟩).size := by
          simpa using h.inside other hmem
        rw [hfinal] at hinside ⊢
        rw [link_setOlder_self hinside, link_set_of_ne hne, hlink]
        rfl
      · have hother : r.tail ≠ some other := by
          have hend : front ++ other :: (rest ++ [final]) = (front ++ other :: rest) ++ [final] := by
            simp
          have hfinal : r.tail = some final := by
            rw [htail, List.concat_eq_append, hend, List.getLast?_concat]
          rw [hfinal]
          intro heq
          have hsame : final = other := Option.some.inj heq
          exact h.notMem_of_split.2 (hsame ▸ by simp)
        rw [link_setOlder_of_ne hother, link_set_of_ne hne, hlink]
        simp

/-- A place of two joined lists is in one of them. -/
theorem append_eq_split {front back left right : List Nat}
    (h : front ++ back = left ++ other :: right) :
    (∃ middle, left = front ++ middle ∧ back = middle ++ other :: right) ∨
      ∃ middle, front = left ++ other :: middle ∧ right = middle ++ back := by
  rcases List.append_eq_append_iff.mp h with ⟨middle, hleft, hback⟩ | ⟨middle, hfront, hright⟩
  · exact Or.inl ⟨middle, hleft, hback⟩
  · cases middle with
    | nil => exact Or.inl ⟨[], by simpa using hfront.symm, by simpa using hright.symm⟩
    | cons first middle =>
        obtain ⟨rfl, hrest⟩ := List.cons.inj hright
        exact Or.inr ⟨middle, hfront, hrest⟩

/-- **Unlinking** takes a place out and joins its neighbours. -/
theorem Lists.unlink {front back : List Nat} (h : r.Lists (front ++ place :: back)) :
    (r.unlink place).Lists (front ++ back) := by
  have hplace := h.link front place back rfl
  obtain ⟨hfront, hback⟩ := h.notMem_of_split
  have hsub : (front ++ back).Sublist (front ++ place :: back) :=
    List.Sublist.append_left (List.sublist_cons_self place back) front
  have hunlink : r.unlink place =
      { (r.setOlder front.getLast? back.head?).setNewer back.head? front.getLast? with
        links := ((r.setOlder front.getLast? back.head?).setNewer back.head?
          front.getLast?).links.setIfInBounds place ⟨.none, .none⟩ } := by
    simp only [Recency.unlink, hplace]
  rw [hunlink]
  refine ⟨?_, ?_, h.nodup.sublist hsub, ?_, ?_⟩
  · show ((r.setOlder front.getLast? back.head?).setNewer back.head? front.getLast?).head = _
    have hhead := h.head
    cases front with
    | nil => cases back <;> rfl
    | cons first rest =>
        rw [List.getLast?_cons]
        cases back <;> simpa [setOlder, setNewer] using hhead
  · show ((r.setOlder front.getLast? back.head?).setNewer back.head? front.getLast?).tail = _
    have htail := h.tail
    cases back with
    | nil => cases front <;> simp [setOlder, setNewer]
    | cons first rest =>
        rw [List.getLast?_append_of_ne_nil _ (List.cons_ne_nil _ _),
          List.getLast?_cons_cons] at htail
        rw [List.getLast?_append_of_ne_nil _ (List.cons_ne_nil _ _)]
        cases hlast : front.getLast? <;> simpa [setOlder, setNewer] using htail
  · intro other hother
    simpa using h.inside other (hsub.subset hother)
  · intro left other right hsplit
    have hmem : other ∈ front ++ back := by
      rw [hsplit]
      simp
    have hsize := h.inside other (hsub.subset hmem)
    have hne : place ≠ other := by
      intro heq
      rcases List.mem_append.mp (heq ▸ hmem) with hin | hin
      · exact hfront hin
      · exact hback hin
    rw [link_set_of_ne hne]
    rcases append_eq_split hsplit with ⟨middle, rfl, rfl⟩ | ⟨middle, rfl, rfl⟩
    · have heq : front ++ place :: (middle ++ other :: right) =
          (front ++ place :: middle) ++ other :: right := by
        simp
      have hbefore := (heq ▸ h : r.Lists _).notMem_of_split.1
      have hlast : front.getLast? ≠ some other := by
        intro hlast
        exact hbefore (List.mem_append_left _ (List.mem_of_getLast? hlast))
      have hold := h.link (front ++ place :: middle) other right heq
      cases middle with
      | nil =>
          rw [List.nil_append, List.head?_cons, link_setNewer_self (by simpa using hsize),
            link_setOlder_of_ne hlast, hold, List.append_nil]
      | cons first rest =>
          have hnext : (first :: rest ++ other :: right).head? ≠ some other := by
            intro hnext
            have hfirst : first = other := Option.some.inj hnext
            exact hbefore (by simp [hfirst])
          rw [link_setNewer_of_ne hnext, link_setOlder_of_ne hlast, hold]
          simp
    · have heq : left ++ other :: middle ++ place :: back =
          left ++ other :: (middle ++ place :: back) := by
        simp
      have hafter := (heq ▸ h : r.Lists _).notMem_of_split.2
      have hnext : back.head? ≠ some other := by
        intro hnext
        exact hafter (by simp [List.mem_of_head? hnext])
      have hold := h.link left other (middle ++ place :: back) heq
      rw [link_setNewer_of_ne hnext]
      rcases List.eq_nil_or_concat middle with rfl | ⟨rest, last, rfl⟩
      · rw [List.getLast?_concat, link_setOlder_self hsize, hold]
        rfl
      · have hend : left ++ other :: rest.concat last = (left ++ other :: rest) ++ [last] := by
          simp
        have hlast : (left ++ other :: rest.concat last).getLast? ≠ some other := by
          rw [hend, List.getLast?_concat]
          intro hlast
          have hsame : last = other := Option.some.inj hlast
          exact hafter (by simp [hsame])
        rw [link_setOlder_of_ne hlast, hold]
        cases rest <;> simp

/-- Unlinking a listed place takes it out of the order. -/
theorem Lists.unlink_of_mem (h : r.Lists order) (hmem : place ∈ order) :
    (r.unlink place).Lists (order.erase place) := by
  obtain ⟨front, back, -, rfl, herase⟩ := List.exists_erase_eq hmem
  rw [herase]
  exact h.unlink

/-! ## Walks -/

/-- Walking on from any place of the order, away from the head, gives the rest
of the order. -/
theorem Lists.walk_older (h : r.Lists order) (fuel : Nat) {front back : List Nat}
    (hsplit : order = front ++ back) : r.walk Link.older fuel back.head? = back.take fuel := by
  induction fuel generalizing front back with
  | zero => simp [walk]
  | succ fuel ih =>
      cases back with
      | nil => rfl
      | cons place back =>
          have hrest : order = (front ++ [place]) ++ back := by simpa using hsplit
          rw [List.head?_cons, walk, h.link front place back hsplit, ih hrest, List.take_succ_cons]

/-- Walking on from any place of the order, away from the tail, gives what is
before it, last first. -/
theorem Lists.walk_newer (h : r.Lists order) (fuel : Nat) {front back : List Nat}
    (hsplit : order = front ++ back) :
    r.walk Link.newer fuel front.getLast? = front.reverse.take fuel := by
  induction fuel generalizing front back with
  | zero => simp [walk]
  | succ fuel ih =>
      rcases List.eq_nil_or_concat front with rfl | ⟨front, place, rfl⟩
      · rfl
      · rw [List.concat_eq_append] at hsplit ⊢
        have hrest : order = front ++ place :: back := by simpa using hsplit
        rw [List.getLast?_concat, walk, h.link front place back hrest, ih hrest,
          List.reverse_append, List.reverse_singleton, List.singleton_append, List.take_succ_cons]

/-- A list without repetitions is no longer than there are places. -/
theorem Lists.length_le (h : r.Lists order) : order.length ≤ r.links.size := by
  have hsub : order ⊆ List.range r.links.size := by
    intro place hplace
    exact List.mem_range.mpr (h.inside place hplace)
  simpa using (List.subperm_of_subset h.nodup hsub).length_le

/-- From the head on, a walk of any length gives the order and then ends. -/
theorem Lists.walk_head (h : r.Lists order) {fuel : Nat} (hfuel : r.links.size < fuel) :
    r.walk Link.older fuel r.head = order := by
  have hlength := h.length_le
  rw [h.head, h.walk_older fuel (List.nil_append order).symm]
  exact List.take_of_length_le (by omega)

/-- From the tail on, a walk of any length gives the order backwards and then
ends. -/
theorem Lists.walk_tail (h : r.Lists order) {fuel : Nat} (hfuel : r.links.size < fuel) :
    r.walk Link.newer fuel r.tail = order.reverse := by
  have hlength := h.length_le
  rw [h.tail, h.walk_newer fuel (List.append_nil order).symm]
  exact List.take_of_length_le (by simpa using (by omega : order.length ≤ fuel))

theorem Lists.fromHead_eq (h : r.Lists order) : r.fromHead = order :=
  h.walk_head (Nat.lt_succ_self _)

/-- The order is the one that the walk from the head finds. -/
theorem Lists.self (h : r.Lists order) : r.Lists r.fromHead := by
  rw [h.fromHead_eq]
  exact h

/-! ## All places -/

theorem lists_none (size : Nat) : (none size).Lists [] := by
  refine ⟨rfl, rfl, List.nodup_nil, ?_, ?_⟩
  · intro place hplace
    cases hplace
  · intro front place back hsplit
    simp at hsplit

@[simp] theorem size_linkTail : (r.linkTail place).links.size = r.links.size := by
  simp [linkTail]

@[simp] theorem size_linkHead : (r.linkHead place).links.size = r.links.size := by
  simp [linkHead]

@[simp] theorem size_unlink : (r.unlink place).links.size = r.links.size := by
  simp [unlink]

/-- Linking one place after another lists them in that order. -/
theorem lists_foldl_linkTail {size count : Nat} (hcount : count ≤ size) :
    ((List.range count).foldl linkTail (none size)).Lists (List.range count) ∧
      ((List.range count).foldl linkTail (none size)).links.size = size := by
  induction count with
  | zero => exact ⟨lists_none size, by simp [none]⟩
  | succ count ih =>
      obtain ⟨hlists, hsize⟩ := ih (by omega)
      rw [List.range_succ, List.foldl_append]
      refine ⟨hlists.linkTail (by omega) List.not_mem_range_self, ?_⟩
      rw [List.foldl_cons, List.foldl_nil, size_linkTail, hsize]

/-- To begin with, all places are listed. -/
theorem lists_all (size : Nat) : (all size).Lists (List.range size) :=
  (lists_foldl_linkTail (Nat.le_refl size)).1

theorem size_all (size : Nat) : (all size).links.size = size :=
  (lists_foldl_linkTail (Nat.le_refl size)).2

end RecordStore.Cache.Recency
