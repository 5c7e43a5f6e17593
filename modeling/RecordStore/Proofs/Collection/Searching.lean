import Mathlib
import RecordStore.Collection.Order
import RecordStore.Proofs.Collection.Agreement
import RecordStore.Proofs.Collection.Bisecting

/-!
# Binary searches in collections

A search in a collection is a bisection whose fetches are gets
(`searched_binarySearch`).  A collection in a file serves one, however it is
held, as long as nothing is held of it: every probe releases what it fetched
before the next one fetches (`serves_ofFile`).  So records that are sorted can be
searched (`search_sorted`).
-/

namespace RecordStore

/-- **Sorted records are graded**: each has a side of what is looked for, and the
sides are in order. -/
theorem RecordOrder.graded_of_ascends {order : RecordOrder} {lower upper : UInt32}
    {records : UInt32 → Bytes}
    (hsorted : ∀ i j, lower ≤ i → i ≤ j → j ≤ upper → order.Ascends (records i) (records j)) :
    ∃ side : UInt32 → Ordering, Bisection.Graded lower upper side ∧
      ∀ index, lower ≤ index → index ≤ upper →
        order.compare (records index) = .ok (side index) := by
  let side : UInt32 → Ordering := fun index => (order.compare (records index)).toOption.getD .eq
  have hside : ∀ index, lower ≤ index → index ≤ upper →
      order.compare (records index) = .ok (side index) := by
    intro index hlower hupper
    obtain ⟨first, -, hfirst, -⟩ :=
      compare_of_ascends (hsorted index index hlower (UInt32.le_refl index) hupper)
    show _ = Except.ok ((order.compare (records index)).toOption.getD .eq)
    rw [hfirst]
    rfl
  have hsides : ∀ i j, lower ≤ i → i ≤ j → j ≤ upper →
      (side j = .lt → side i = .lt) ∧ (side i = .gt → side j = .gt) := by
    intro i j hlower hle hupper
    obtain ⟨first, second, hfirst, hsecond, horder⟩ :=
      compare_of_ascends (hsorted i j hlower hle hupper)
    rw [hside i hlower (UInt32.le_trans hle hupper)] at hfirst
    rw [hside j (UInt32.le_trans hlower hle) hupper] at hsecond
    obtain rfl := Except.ok.inj hfirst
    obtain rfl := Except.ok.inj hsecond
    exact horder
  exact ⟨side, ⟨fun hlower hle hupper => (hsides _ _ hlower hle hupper).1,
    fun hlower hle hupper => (hsides _ _ hlower hle hupper).2⟩, hside⟩

/-! ## Records of a collection -/

namespace Collection

variable {σ : Type}

/-- How a search has the records of a collection. -/
def bisection (c : Collection) (sizing : Sizing)
    (compare : UInt32 → Item → σ × Storage → Except StoreError Ordering × (σ × Storage)) :
    Bisection (σ × Storage) Item where
  fetch := fun index (state, storage) =>
    let (result, storage) := c.get ⟨index, sizing⟩ storage
    (result, (state, storage))
  compare := compare
  release := fun item (state, storage) => (state, storage.release item)

theorem bisection_fetch (c : Collection) (sizing : Sizing)
    (compare : UInt32 → Item → σ × Storage → Except StoreError Ordering × (σ × Storage))
    (index : UInt32) (world : σ × Storage) :
    (c.bisection sizing compare).fetch index world =
      (((c.get ⟨index, sizing⟩).run world.2).1,
        (world.1, ((c.get ⟨index, sizing⟩).run world.2).2)) :=
  rfl

/-! ## Records of a collection in a file -/

section

variable {config : CollectionConfig} {header : Header} {storage start now : Storage}
  {c : Collection} {position : Nat} {keys : List Key} {sizing : Sizing} {lower upper : UInt32}
  {compare : UInt32 → Item → σ × Storage → Except StoreError Ordering × (σ × Storage)}
  {records : UInt32 → Bytes} {order : UInt32 → Ordering} {state : σ}

/-- A record that is released right after it was got is not held any more. -/
theorem visited_of_released {storage : Storage} (h : Visited c start keys storage [])
    {key : Key} {item : Item} {after : Storage}
    (hget : (c.get key).run storage = (.ok (some item), after)) :
    Visited c start (key :: keys) (after.release item) [] := by
  have hheld := h.get key
  rw [hget] at hheld
  have hreleased := hheld.release (List.mem_cons_self (a := item))
  rwa [List.append_nil, given, List.erase_cons_head] at hreleased

/-- Probing asks for keys of one sizing, and holds nothing when it is done. -/
theorem visited_of_probed (h : Visited c start keys now [])
    (hkept : ∀ index item world, (compare index item world).2.2 = world.2)
    {world : σ × Storage}
    (hprobed : (c.bisection sizing compare).Probed lower upper (state, now) world) :
    ∃ asked, Visited c start (asked ++ keys) world.2 [] ∧ ∀ key ∈ asked, key.sizing = sizing := by
  induction hprobed with
  | start => exact ⟨[], h, by simp⟩
  | @probe world fetched compared index record found hprobed hlower hupper hfetch hcompared ih =>
      obtain ⟨asked, hvisited, hsizing⟩ := ih
      rw [bisection_fetch] at hfetch
      obtain ⟨hresult, rfl⟩ := Prod.mk.inj hfetch
      have hstorage : compared.2 = ((c.get ⟨index, sizing⟩).run world.2).2 :=
        (congrArg (·.2.2) hcompared).symm.trans (hkept index record _)
      refine ⟨⟨index, sizing⟩ :: asked, ?_, ?_⟩
      · show Visited c start _ (compared.2.release record) []
        rw [hstorage]
        exact visited_of_released hvisited (Prod.ext hresult rfl)
      · intro key hmem
        rcases List.mem_cons.mp hmem with rfl | hmem
        · rfl
        · exact hsizing key hmem

/-- **While nothing is held**, a search can fetch all the records that streaming
reads, if comparing them leaves storage as it is. -/
theorem serves_ofFile (hready : storage.Ready)
    (hlimit : storage.file.contents.length < Handle.positionLimit) (hfits : header.Fits)
    (hopen : Collection.ofFile config header storage = .ok ((c, position), start))
    (h : Visited c start keys now [])
    (hundisturbed : ∀ index, lower ≤ index → index ≤ upper → c.Undisturbed keys ⟨index, sizing⟩)
    (hreading : ∀ index, lower ≤ index → index ≤ upper →
      Source.reading ⟨header.start, none⟩ (Layout.ofHeader header) storage.file ⟨index, sizing⟩ =
        .ok (records index))
    (hkept : ∀ index item world, (compare index item world).2.2 = world.2)
    (hcompare : ∀ index item world, lower ≤ index → index ≤ upper → item.bytes = records index →
      (compare index item world).1 = .ok (order index)) :
    (c.bisection sizing compare).Serves lower upper (state, now)
      (fun index item => item.bytes = records index) order := by
  have hgiven : ∀ {world : σ × Storage} {index},
      (c.bisection sizing compare).Probed lower upper (state, now) world →
        lower ≤ index → index ≤ upper →
          ∃ item, ((c.get ⟨index, sizing⟩).run world.2).1 = .ok (some item) ∧
            item.bytes = records index := by
    intro world index hprobed hlower hupper
    obtain ⟨asked, hvisited, hsizing⟩ := visited_of_probed h hkept hprobed
    apply eq_ok_of_bytesGiven
    rw [hvisited.get_at_rest hready hlimit hfits hopen, hreading index hlower hupper]
    · rfl
    · exact (hundisturbed index hlower hupper).append hsizing
  refine ⟨?_, ?_⟩
  · intro world index hprobed hlower hupper
    obtain ⟨item, hitem, hbytes⟩ := hgiven hprobed hlower hupper
    exact ⟨item, _, Prod.ext hitem rfl, hbytes⟩
  · intro world index record fetched hprobed hlower hupper hfetch
    obtain ⟨item, hitem, hbytes⟩ := hgiven hprobed hlower hupper
    rw [bisection_fetch, hitem] at hfetch
    obtain ⟨hrecord, -⟩ := Prod.mk.inj hfetch
    obtain rfl : item = record := Option.some.inj (Except.ok.inj hrecord)
    exact ⟨_, Prod.ext (hcompare index item fetched hlower hupper hbytes) rfl⟩

/-- **In sorted records**, a search while nothing is held finds one that is what
is looked for, if there is one. -/
theorem search_sorted {order : RecordOrder} (hready : storage.Ready)
    (hlimit : storage.file.contents.length < Handle.positionLimit) (hfits : header.Fits)
    (hopen : Collection.ofFile config header storage = .ok ((c, position), start))
    (h : Visited c start keys now [])
    (hundisturbed : ∀ index, lower ≤ index → index ≤ upper → c.Undisturbed keys ⟨index, sizing⟩)
    (hreading : ∀ index, lower ≤ index → index ≤ upper →
      Source.reading ⟨header.start, none⟩ (Layout.ofHeader header) storage.file ⟨index, sizing⟩ =
        .ok (records index))
    (hsorted : ∀ i j, lower ≤ i → i ≤ j → j ≤ upper → order.Ascends (records i) (records j)) :
    let result := (c.binarySearch lower upper sizing
      (fun _ item world => (order.compare item.bytes, world)) (state, now)).1
    (∃ index item, result = .ok (.found index item) ∧ lower ≤ index ∧ index ≤ upper ∧
      item.bytes = records index ∧ order.compare (records index) = .ok .eq) ∨
    (result = .ok .absent ∧
      ∀ index, lower ≤ index → index ≤ upper → order.compare (records index) ≠ .ok .eq) := by
  obtain ⟨side, hgraded, hside⟩ := RecordOrder.graded_of_ascends hsorted
  have hserves : (c.bisection sizing fun _ item world => (order.compare item.bytes, world)).Serves
      lower upper (state, now) (fun index item => item.bytes = records index) side := by
    refine serves_ofFile hready hlimit hfits hopen h hundisturbed hreading (fun _ _ _ => rfl) ?_
    intro index item world hlower hupper hbytes
    rw [hbytes]
    exact hside index hlower hupper
  intro result
  have hdecides : Bisection.Decides lower upper (fun index item => item.bytes = records index)
      side result :=
    Bisection.search_decides hserves hgraded .start (Bisection.narrowed_self ..)
  by_cases hequal : ∃ index, lower ≤ index ∧ index ≤ upper ∧ side index = .eq
  · obtain ⟨index, item, hresult, hlower, hupper, heq, hbytes⟩ := hdecides.of_eq hequal
    exact .inl ⟨index, item, hresult, hlower, hupper, hbytes, heq ▸ hside index hlower hupper⟩
  · have hnone : ∀ index, lower ≤ index → index ≤ upper → side index ≠ .eq :=
      fun index hlower hupper heq => hequal ⟨index, hlower, hupper, heq⟩
    refine .inr ⟨hdecides.of_ne hnone, ?_⟩
    intro index hlower hupper heq
    rw [hside index hlower hupper] at heq
    exact hnone index hlower hupper (Except.ok.inj heq)

end

/-! ## Searches -/

/-- A search among the records from `lower` to `upper` of a collection comes to
`result`, and is told `replies`.  If all of the records can be fetched and their
order is that of the search, it finds one that is equal if there is one. -/
structure Searched (c : Collection) (lower upper : UInt32) (sizing : Sizing)
    (compare : UInt32 → Item → σ × Storage → Except StoreError Ordering × (σ × Storage))
    (start : σ × Storage) (result : Except StoreError (SearchOutcome Item))
    (replies : List (Reply Item)) : Prop where
  found : ∀ {records : UInt32 → Bytes} {order : UInt32 → Ordering},
    (c.bisection sizing compare).Serves lower upper start
        (fun index item => item.bytes = records index) order →
      Bisection.Graded lower upper order →
      (∃ index, lower ≤ index ∧ index ≤ upper ∧ order index = .eq) →
        ∃ index item, result = .ok (.found index item) ∧ lower ≤ index ∧ index ≤ upper ∧
          order index = .eq ∧ item.bytes = records index
  absent : ∀ {records : UInt32 → Bytes} {order : UInt32 → Ordering},
    (c.bisection sizing compare).Serves lower upper start
        (fun index item => item.bytes = records index) order →
      Bisection.Graded lower upper order →
      (∀ index, lower ≤ index → index ≤ upper → order index ≠ .eq) → result = .ok .absent
  unasked : upper < lower → result = .ok .absent ∧ replies = []
  error_iff : ∀ e, result = .error e ↔ replies.findSome? Reply.failure? = some e
  exhausted_iff : result = .ok .exhausted ↔ ∃ index, .fetched index (.ok none) ∈ replies
  stops : replies.Pairwise fun earlier _ => earlier.stops = false

/-- **What a binary search comes to**, in any collection, with any comparison
and from any state. -/
theorem searched_binarySearch (c : Collection) (lower upper : UInt32) (sizing : Sizing)
    (compare : UInt32 → Item → σ × Storage → Except StoreError Ordering × (σ × Storage))
    (start : σ × Storage) : ∃ result finish replies,
      c.binarySearch lower upper sizing compare start = (result, finish) ∧
      (c.bisection sizing compare).logged.search lower upper (start, []) =
        (result, (finish, replies)) ∧
      c.Searched lower upper sizing compare start result replies := by
  let b := c.bisection sizing compare
  obtain ⟨replies, hlogged, hconcludes⟩ := b.logged_search lower upper start []
  rw [List.nil_append] at hlogged
  have hdecides : ∀ {records : UInt32 → Bytes} {order : UInt32 → Ordering},
      b.Serves lower upper start (fun index item => item.bytes = records index) order →
        Bisection.Graded lower upper order →
          Bisection.Decides lower upper (fun index item => item.bytes = records index) order
            (b.search lower upper start).1 := by
    intro records order hserves hgraded
    exact Bisection.search_decides hserves hgraded .start (Bisection.narrowed_self ..)
  refine ⟨(b.search lower upper start).1, (b.search lower upper start).2, replies, rfl, hlogged,
    ?_⟩
  exact {
    found := fun hserves hgraded hequal => (hdecides hserves hgraded).of_eq hequal
    absent := fun hserves hgraded hne => (hdecides hserves hgraded).of_ne hne
    unasked := by
      intro hlt
      rw [Bisection.search_of_lt hlt, Bisection.search_of_lt hlt] at hlogged
      rw [Bisection.search_of_lt hlt]
      exact ⟨rfl, (congrArg (·.2.2) hlogged).symm⟩
    error_iff := hconcludes.error_iff
    exhausted_iff := hconcludes.exhausted_iff
    stops := hconcludes.pairwise }

/-- One of two records that are equal is found, through a cache of one node. -/
theorem searched_two_equal : ∃ c position start index item,
    Collection.ofFile (.cached 1 1) ⟨4, 16, 4⟩
        (.over ⟨[4, 0, 0, 0, 10, 0, 0, 0, 20, 0, 0, 0, 20, 0, 0, 0, 30, 0, 0, 0], true⟩
          ⟨1, [], 0, 0⟩) = .ok ((c, position), start) ∧
      (c.binarySearch 0 3 .integer
        (fun _ item world => ((RecordOrder.signed 20).compare item.bytes, world))
        ((), start)).1 = .ok (.found index item) ∧ item.bytes = [20, 0, 0, 0] := by
  let file : DataFile :=
    ⟨[4, 0, 0, 0, 10, 0, 0, 0, 20, 0, 0, 0, 20, 0, 0, 0, 30, 0, 0, 0], true⟩
  let compare : UInt32 → Item → Unit × Storage → Except StoreError Ordering × (Unit × Storage) :=
    fun _ item world => ((RecordOrder.signed 20).compare item.bytes, world)
  let records : UInt32 → Bytes := fun index => [[10, 20, 20, 30].getD index.toNat 0, 0, 0, 0]
  let order : UInt32 → Ordering := fun index =>
    if index < 1 then .lt else if index < 3 then .eq else .gt
  let c : Collection := ⟨⟨4, 16, 4⟩, .file ⟨4, some 0⟩⟩
  have hopen : ∃ start, Collection.ofFile (.cached 1 1) ⟨4, 16, 4⟩ (.over file ⟨1, [], 0, 0⟩) =
      .ok ((c, 20), start) := ⟨_, rfl⟩
  obtain ⟨start, hopen⟩ := hopen
  have hfew : ∀ index : UInt32, index ≤ 3 → index = 0 ∨ index = 1 ∨ index = 2 ∨ index = 3 := by
    intro index h
    rw [UInt32.le_iff_toNat_le] at h
    simp only [← UInt32.toNat_inj]
    simp at h ⊢
    omega
  have hserves : (c.bisection .integer compare).Serves 0 3 ((), start)
      (fun index item => item.bytes = records index) order := by
    refine serves_ofFile (.inr ⟨by decide, rfl⟩) (by decide) (fun _ => rfl) hopen .start ?_ ?_ ?_ ?_
    · intro index _ _
      right
      simp
    · intro index _ hupper
      rcases hfew index hupper with rfl | rfl | rfl | rfl <;> rfl
    · intro index item world
      rfl
    · intro index item world _ hupper hbytes
      show (RecordOrder.signed 20).compare item.bytes = _
      rw [hbytes]
      rcases hfew index hupper with rfl | rfl | rfl | rfl <;> rfl
  obtain ⟨result, finish, replies, hsearch, -, hsearched⟩ :=
    searched_binarySearch c 0 3 .integer compare ((), start)
  obtain ⟨index, item, rfl, -, hupper, hequal, hbytes⟩ :=
    hsearched.found hserves (Bisection.graded_runs 0 3 1 3) ⟨1, by decide⟩
  refine ⟨c, 20, start, index, item, hopen, congrArg Prod.fst hsearch, hbytes.trans ?_⟩
  rcases hfew index hupper with rfl | rfl | rfl | rfl
  · cases hequal
  · rfl
  · rfl
  · cases hequal

end Collection

end RecordStore
