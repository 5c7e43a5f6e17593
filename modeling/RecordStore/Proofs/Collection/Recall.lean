import Mathlib
import RecordStore.Proofs.Collection.Agreement

/-!
# What a cache recalls

A cache tells records apart by address alone.  What a get through it brought in
answers the next get of the address, however that one sizes the record
(`get_after_get`): a byte that was fetched is all that is left of the integer
at its address (`get_after_get_differs`).  Nothing else is carried over: what
memory holds, what failed before, and what every key asked for sizes alike is
answered as if nothing had been fetched.
-/

namespace RecordStore

/-- What is in the cache for an address after a get of it, when `before` was.
Memory serves without the cache, and a failure leaves nothing. -/
def leftBehind (atHand : Bool) (before : Option Bytes)
    (answered : Except StoreError (Option Bytes)) : Option Bytes :=
  if atHand then before
  else
    match answered with
    | .ok bytes? => bytes?
    | .error _ => none

/-- How a get is answered when `left` is in the cache, and a collection that
was just opened would answer `fresh`. -/
def answerAfter (atHand : Bool) (left : Option Bytes)
    (fresh : Except StoreError (Option Bytes)) : Except StoreError (Option Bytes) :=
  if atHand then fresh
  else
    match left with
    | some bytes => .ok (some bytes)
    | none => fresh

section

variable {before now : Option Bytes} {fresh : Except StoreError Bytes}
  {answered : Except StoreError (Option Bytes)}

theorem Answers.leaves (h : Answers before fresh answered now) :
    now = leftBehind false before answered := by
  cases h <;> rfl

theorem Answers.eq_of_ne_none (h : Answers before fresh answered now)
    (hne : before = none → answered ≠ .ok none) :
    answered = answerAfter false before (fresh.map some) := by
  cases h with
  | hit hbefore =>
      rw [hbefore]
      rfl
  | full hbefore => exact absurd rfl (hne hbefore)
  | loaded hbefore hfresh =>
      rw [hbefore, hfresh]
      rfl
  | failed hbefore hfresh =>
      rw [hbefore, hfresh]
      rfl

end

section

variable {file : DataFile} {header : Header} {source : Source} {c : Collection}
  {id count size : Nat} {start storage between : Storage} {keys : List Key} {items : List Item}
  {first second key : Key}

/-- A get through the cache while nothing that is not in it can be held. -/
theorem Serving.get_answer (h : Serving id count size file storage items) (hpos : 0 < count)
    (hsize : 0 < size) (hid : source.cache? = some id)
    (hout : storage.resident? id key.address = none → pinsOf items = []) (layout : Layout) :
    bytesGiven ((source.get layout key).run storage).1 =
      answerAfter false (storage.resident? id key.address)
        ((source.reading layout file key).map some) := by
  apply (h.get hpos hid layout key rfl).2.2.eq_of_ne_none
  intro hnone hgiven
  exact h.get_ne_none hpos hsize hid (hout hnone) layout key
    (bytesGiven_eq_ok_none_iff.mp hgiven)

/-- **What a get leaves behind** in the cache, and what is held then if that is
nothing. -/
theorem Visited.get_leaves (h : Visited c start keys storage [])
    (hfresh : Fresh file header source id count size c start)
    {result : Except StoreError (Option Item)} {after : Storage}
    (hrun : (c.get first).run storage = (result, after)) :
    after.resident? id first.address = leftBehind (c.holds first)
        (storage.resident? id first.address) (bytesGiven result) ∧
      (after.resident? id first.address = none → pinsOf (given result) = []) := by
  obtain ⟨hserving, -⟩ := h.serving hfresh
  by_cases hholds : c.holds first
  · obtain ⟨record, hrecord⟩ := get_at_hand hholds
    rw [hrecord storage] at hrun
    obtain ⟨rfl, rfl⟩ := Prod.mk.inj hrun
    rw [hholds]
    refine ⟨rfl, ?_⟩
    intro _
    cases record <;> rfl
  · rw [hfresh.opened.get_of_not_holds (eq_false_of_ne_true hholds)] at hrun
    obtain ⟨-, -, hanswers⟩ :=
      hserving.get hfresh.count_pos hfresh.cache (Layout.ofHeader header) first hrun
    rw [eq_false_of_ne_true hholds]
    refine ⟨hanswers.leaves, ?_⟩
    intro hnone
    rw [hanswers.leaves] at hnone
    rcases result with _ | _ | item
    · rfl
    · rfl
    · cases hnone

/-- Whether or not its item is still held, what a get leaves behind is there
when the next one is made. -/
theorem Visited.get_then (h : Visited c start keys storage [])
    (hfresh : Fresh file header source id count size c start)
    (hbetween : between = ((c.get first).run storage).2 ∨
      ∃ item ∈ given ((c.get first).run storage).1,
        between = ((c.get first).run storage).2.release item) :
    ∃ items, Visited c start (first :: keys) between items ∧
      between.resident? id first.address = leftBehind (c.holds first)
        (storage.resident? id first.address) (bytesGiven ((c.get first).run storage).1) ∧
      (between.resident? id first.address = none → pinsOf items = []) := by
  have hvisited := h.get first
  rw [List.append_nil] at hvisited
  have hrun : (c.get first).run storage = (((c.get first).run storage).1,
      ((c.get first).run storage).2) := rfl
  obtain ⟨hleft, hout⟩ := h.get_leaves hfresh hrun
  rcases hbetween with rfl | ⟨item, hitem, rfl⟩
  · exact ⟨_, hvisited, hleft, hout⟩
  · obtain ⟨hserving, -⟩ := hvisited.serving hfresh
    have hreleased := hvisited.release hitem
    have hnothing : (given ((c.get first).run storage).1).erase item = [] := by
      rcases hgot : ((c.get first).run storage).1 with _ | _ | other
      · rfl
      · rfl
      · rw [hgot] at hitem
        obtain rfl := List.mem_singleton.mp hitem
        simp [given]
    rw [hnothing] at hreleased
    refine ⟨[], hreleased, ?_, fun _ => rfl⟩
    rw [(hserving.toLent.release hitem).2]
    exact hleft

/-- A collection that was just opened answers what streaming reads. -/
theorem get_fresh (hfresh : Fresh file header source id count size c start)
    (hholds : c.holds key = false) :
    bytesGiven ((c.get key).run start).1 =
      (source.reading (Layout.ofHeader header) file key).map some := by
  rw [hfresh.opened.get_of_not_holds hholds,
    hfresh.serving.get_answer hfresh.count_pos hfresh.size_pos hfresh.cache (fun _ => rfl),
    hfresh.empty]
  rfl

/-- The second of two gets is answered by what the first left behind. -/
theorem Visited.get_second (h : Visited c start keys storage [])
    (hfresh : Fresh file header source id count size c start)
    (haddress : first.address = second.address)
    (hbetween : between = ((c.get first).run storage).2 ∨
      ∃ item ∈ given ((c.get first).run storage).1,
        between = ((c.get first).run storage).2.release item) :
    bytesGiven ((c.get second).run between).1 = answerAfter (c.holds second)
      (leftBehind (c.holds first) (storage.resident? id first.address)
        (bytesGiven ((c.get first).run storage).1)) (bytesGiven ((c.get second).run start).1) := by
  by_cases hholds : c.holds second
  · obtain ⟨record, hrecord⟩ := get_at_hand hholds
    rw [hrecord between, hrecord start, hholds]
    rfl
  · obtain ⟨items, hthen, hleft, hout⟩ := h.get_then hfresh hbetween
    obtain ⟨hnow, -⟩ := hthen.serving hfresh
    rw [haddress] at hleft hout ⊢
    have hholds' := eq_false_of_ne_true hholds
    rw [get_fresh hfresh hholds', hfresh.opened.get_of_not_holds hholds',
      hnow.get_answer hfresh.count_pos hfresh.size_pos hfresh.cache hout, hleft, hholds']

/-- Keys that size the record alike do not disturb each other. -/
theorem Visited.get_second_alike (h : Visited c start keys storage [])
    (hfresh : Fresh file header source id count size c start)
    (haddress : first.address = second.address)
    (hbetween : between = ((c.get first).run storage).2 ∨
      ∃ item ∈ given ((c.get first).run storage).1,
        between = ((c.get first).run storage).2.release item)
    (halike : ∀ other ∈ first :: keys, other.address = second.address →
      other.sizing.Alike second.sizing) :
    bytesGiven ((c.get second).run between).1 = bytesGiven ((c.get second).run start).1 := by
  rw [h.get_second hfresh haddress hbetween]
  obtain ⟨items, hthen, hleft, -⟩ := h.get_then hfresh hbetween
  obtain ⟨-, hasked⟩ := hthen.serving hfresh
  rw [← hleft, haddress]
  by_cases hholds : c.holds second
  · rw [hholds]
    rfl
  · have hholds' := eq_false_of_ne_true hholds
    rw [hholds']
    cases hfound : between.resident? id second.address with
    | none => rfl
    | some bytes =>
        obtain ⟨asked, hmem, hsame, hread⟩ := hasked second.address bytes hfound
        rw [get_fresh hfresh hholds',
          ← Source.reading_congr hsame (halike asked hmem hsame), hread]
        rfl

end

/-- A collection that was just opened with a cache answers what one that is
streamed answers. -/
theorem get_fresh_streamed {config : CollectionConfig} {header : Header}
    {storage start : Storage} {c : Collection} {position id : Nat} {source : Source} {key : Key}
    (hready : storage.Ready) (hlimit : storage.file.contents.length < Handle.positionLimit)
    (hfits : header.Fits)
    (hopen : Collection.ofFile config header storage = .ok ((c, position), start))
    (hsource : c.source? = some source) (hid : source.cache? = some id) (concurrency : UInt16) :
    ∃ streamed, Collection.ofFile (.streamed concurrency) header storage =
        .ok ((streamed, position), storage) ∧
      bytesGiven ((c.get key).run start).1 = bytesGiven ((streamed.get key).run storage).1 := by
  obtain ⟨hstart, hfinish, _, _, hfresh⟩ := fresh_ofFile hopen hsource hid hready
  have hbudget : (CollectionConfig.streamed concurrency).budget (Layout.ofHeader header) = 0 := by
    simp [CollectionConfig.budget, CollectionConfig.streamed]
  have hload : Collection.load storage.file header.start
      ((CollectionConfig.streamed concurrency).budget (Layout.ofHeader header)) = .ok none := by
    rw [hbudget]
    rfl
  have hnocache : (CollectionConfig.streamed concurrency).hasCache = false := rfl
  refine ⟨⟨Layout.ofHeader header, .file ⟨header.start, none⟩⟩, ?_, ?_⟩
  · rw [ofFile_of_none hload, hfinish, Collection.openSource,
      if_neg (ne_true_of_eq_false hnocache)]
    rfl
  · have hfile : Opened storage.file header ⟨header.start, none⟩
        ⟨Layout.ofHeader header, .file ⟨header.start, none⟩⟩ := .file
    rw [Visited.start.get_uncached hfile rfl hready rfl hfits rfl hlimit key,
      ← Source.reading_of_start hstart]
    by_cases hholds : c.holds key
    · rw [hfresh.opened.get_of_holds hfits hstart hlimit hholds start]
      exact bytesGiven_at_hand _
    · exact get_fresh hfresh (eq_false_of_ne_true hholds)

/-- **What was fetched before matters only through the cache.**  In a state in
which nothing is held, `first` is got, and `second` at the same address after
it, with the first item still held or not.  The second get is answered as by a
collection that was just opened, unless memory does not hold the record and
something is in the cache for the address: then that is what it gives.  If all
keys of the address so far size it alike, this makes no difference; and a
collection that was just opened answers what a streamed one answers. -/
theorem get_after_get {config : CollectionConfig} {header : Header} {storage start : Storage}
    {c : Collection} {position id : Nat} {source : Source} {keys : List Key}
    {now between : Storage} {first second : Key} (hready : storage.Ready)
    (hopen : Collection.ofFile config header storage = .ok ((c, position), start))
    (hsource : c.source? = some source) (hid : source.cache? = some id)
    (hvisited : Visited c start keys now []) (haddress : first.address = second.address)
    (hbetween : between = ((c.get first).run now).2 ∨
      ∃ item ∈ given ((c.get first).run now).1, between = ((c.get first).run now).2.release item) :
    bytesGiven ((c.get second).run between).1 =
        answerAfter (c.holds second)
          (leftBehind (c.holds first) (now.resident? id first.address)
            (bytesGiven ((c.get first).run now).1))
          (bytesGiven ((c.get second).run start).1) ∧
      ((∀ other ∈ first :: keys, other.address = second.address →
          other.sizing.Alike second.sizing) →
        bytesGiven ((c.get second).run between).1 = bytesGiven ((c.get second).run start).1) ∧
      (∀ place elementSize isCount next, Header.ofFile storage.file place elementSize isCount =
          .ok (header, next) → storage.file.contents.length < Handle.positionLimit →
        ∀ concurrency, ∃ streamed, Collection.ofFile (.streamed concurrency) header storage =
            .ok ((streamed, position), storage) ∧
          bytesGiven ((c.get second).run start).1 =
            bytesGiven ((streamed.get second).run storage).1) := by
  obtain ⟨-, -, _, _, hfresh⟩ := fresh_ofFile hopen hsource hid hready
  refine ⟨?_, ?_, ?_⟩
  · exact hvisited.get_second hfresh haddress hbetween
  · exact hvisited.get_second_alike hfresh haddress hbetween
  · intro place elementSize isCount next hheader hlimit concurrency
    have hfits := (ofReader_eq_ok (ofReader_of_ofFile hheader)).2.2.2
    exact get_fresh_streamed hready hlimit hfits hopen hsource hid concurrency

/-- A text is fetched, and then the bytes at its address, which have the same
length. -/
theorem get_after_get_text : ∃ c position start,
    Collection.ofFile (.cached 1 1) ⟨4, 5, 0⟩
        (.over ⟨[5, 0, 0, 0, 3, 0, 97, 98, 0], true⟩ ⟨1, [], 0, 0⟩) =
      .ok ((c, position), start) ∧
    bytesGiven ((c.get ⟨0, .byteArray⟩).run ((c.get ⟨0, .string⟩).run start).2).1 =
      answerAfter (c.holds ⟨0, .byteArray⟩)
        (leftBehind (c.holds ⟨0, .string⟩) (start.resident? 0 0)
          (bytesGiven ((c.get ⟨0, .string⟩).run start).1))
        (bytesGiven ((c.get ⟨0, .byteArray⟩).run start).1) ∧
    bytesGiven ((c.get ⟨0, .byteArray⟩).run ((c.get ⟨0, .string⟩).run start).2).1 =
      bytesGiven ((c.get ⟨0, .byteArray⟩).run start).1 := by
  let storage := Storage.over ⟨[5, 0, 0, 0, 3, 0, 97, 98, 0], true⟩ ⟨1, [], 0, 0⟩
  have hready : storage.Ready := .inr ⟨by decide, rfl⟩
  have halike : ∀ other ∈ [(⟨0, .string⟩ : Key)], other.address = 0 →
      other.sizing.Alike .byteArray := by
    intro other hother _
    obtain rfl := List.mem_singleton.mp hother
    exact ⟨rfl, fun _ => rfl⟩
  let c : Collection := ⟨⟨0, 5, 0⟩, .file ⟨4, some 0⟩⟩
  have hopen : ∃ start, Collection.ofFile (.cached 1 1) ⟨4, 5, 0⟩ storage = .ok ((c, 9), start) :=
    ⟨_, rfl⟩
  obtain ⟨start, hopen⟩ := hopen
  have hsource : c.source? = some ⟨4, some 0⟩ := rfl
  have hid : (⟨4, some 0⟩ : Source).cache? = some 0 := rfl
  have haddress : (⟨0, .string⟩ : Key).address = (⟨0, .byteArray⟩ : Key).address := rfl
  obtain ⟨hanswer, hsame, -⟩ :=
    get_after_get hready hopen hsource hid .start haddress (.inl rfl)
  exact ⟨c, 9, start, hopen, hanswer, hsame halike⟩

/-- **Sizings that differ do disturb each other**: a byte is fetched and let go,
and then the integer at its address. -/
theorem get_after_get_differs : ∃ c position start item,
    Collection.ofFile (.cached 1 1) ⟨4, 4, 0⟩
        (.over ⟨[4, 0, 0, 0, 1, 2, 3, 4], true⟩ ⟨1, [], 0, 0⟩) = .ok ((c, position), start) ∧
      ((c.get ⟨0, .byte⟩).run start).1 = .ok (some item) ∧
      bytesGiven ((c.get ⟨0, .integer⟩).run (((c.get ⟨0, .byte⟩).run start).2.release item)).1 ≠
        bytesGiven ((c.get ⟨0, .integer⟩).run start).1 := by
  let c : Collection := ⟨⟨0, 4, 0⟩, .file ⟨4, some 0⟩⟩
  let start : Storage := ⟨⟨[4, 0, 0, 0, 1, 2, 3, 4], true⟩, ⟨1, [], 0, 0⟩,
    #[⟨#[Cache.Shard.ofSize 1], Collection.spread, 1, 1, 0, 0⟩]⟩
  let item : Item := ⟨[1], some (0, ⟨0, 0⟩)⟩
  have hlater : bytesGiven ((c.get ⟨0, .integer⟩).run
      (((c.get ⟨0, .byte⟩).run start).2.release item)).1 = .ok (some [1]) := by cbv
  have hfresh : bytesGiven ((c.get ⟨0, .integer⟩).run start).1 =
      .ok (some [1, 2, 3, 4]) := by cbv
  refine ⟨c, 8, start, item, rfl, by cbv, ?_⟩
  intro hsame
  rw [hlater, hfresh] at hsame
  cases hsame

end RecordStore
