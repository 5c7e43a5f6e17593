import Mathlib
import RecordStore.Index.ByName
import RecordStore.Index.PropertyIndex
import RecordStore.Proofs.Collection.Releasing

/-!
# Searches and scans leave no references behind

Whatever a search or a scan over collections comes to, it leaves as many
references to each node of each cache as there were (`LeavesNothing`); only a
search that finds its record leaves one more, to the node that the record is in
(`LeavesFound`).  On the way there is never more than one node held in each
cache, so none of them fails for want of a node if each shard had one
(`references_return`).
-/

namespace RecordStore

/-- What an operation on the collections `used` leaves behind.

* `sparing`: it is a course of gets and releases, with nothing in hand in the
  end and never more than one node of a cache.
* `holders`: there are as many references to each node as there were.
* `served`: if each shard had a node that nobody held, the result is one that
  `Served` allows. -/
structure LeavesNothing {α : Type} (used : List Collection) (storage : Storage)
    (Served : α → Prop) (op : Storage → α × Storage) : Prop where
  sparing : Carries used none (fun _ hand _ => hand = .empty) false .empty op
  holders : ∀ id pin, (op storage).2.holders id pin = storage.holders id pin
  served : (∀ c ∈ used, c.HasRoom storage) → Served (op storage).1

/-- What a search leaves behind, when records are compared in a way that uses
the collections `others` and keeps nothing.

* `sparing`: it is a course of gets and releases, and comparisons, with only the
  record that it finds in hand in the end and never more than one.
* `unfound`: unless it finds a record, there are as many references to each node
  as there were.
* `found`: if it does, there is one more to the node that the record is in, if
  that came through the cache, and the node has the record.
* `served`: if each shard had a node that nobody held, it is not exhausted. -/
structure LeavesFound {σ : Type} (c : Collection) (others : List Collection) (sizing : Sizing)
    (storage : Storage)
    (op : Storage → (Except StoreError (SearchOutcome Item) × σ) × Storage) : Prop where
  sparing : Carries [c] (some others)
    (fun starved hand out => Finishes c sizing (fun _ _ => True) .empty starved hand out.1)
    false .empty op
  unfound : (∀ index item, (op storage).1.1 ≠ .ok (.found index item)) →
    ∀ id pin, (op storage).2.holders id pin = storage.holders id pin
  found : ∀ index item, (op storage).1.1 = .ok (.found index item) →
    item.cacheId? = (if c.holds ⟨index, sizing⟩ then none else c.cacheId?) ∧
      (op storage).2.Keeps index item ∧
      ∀ id pin, (op storage).2.holders id pin =
        storage.holders id pin + if item.pin? = some (id, pin) then 1 else 0
  served : c.HasRoom storage → (op storage).1.1 ≠ .ok .exhausted

/-! ## Decoding -/

section

variable {used : List Collection} {hand : Hand} {c : Collection}

theorem neverExhausts_decodeValue (record : Bytes) : NeverExhausts (ValueRecord.decode record) := by
  unfold ValueRecord.decode
  split
  · exact neverExhausts_ok _
  · exact neverExhausts_error rfl

theorem neverExhausts_decodeOffset (record : Bytes) :
    NeverExhausts (ProfileOffset.decode record) := by
  unfold ProfileOffset.decode
  split
  · exact neverExhausts_ok _
  · exact neverExhausts_error rfl

theorem neverExhausts_header (record : Bytes) : NeverExhausts (Profile.header record) := by
  unfold Profile.header
  split
  · exact neverExhausts_ok _
  · exact neverExhausts_error rfl

theorem neverExhausts_length (record : Bytes) : NeverExhausts (Profile.length record) := by
  refine (neverExhausts_header record).bind fun profile => ?_
  exact neverExhausts_ite (neverExhausts_ok _) (neverExhausts_error rfl)

theorem neverExhausts_decodeProfile (record : Bytes) : NeverExhausts (Profile.decode record) := by
  refine (neverExhausts_header record).bind fun profile => ?_
  refine (neverExhausts_length record).bind fun length => ?_
  exact neverExhausts_ite (neverExhausts_ok _) (neverExhausts_error rfl)

theorem neverExhausts_lengthPrefixed (header : Bytes) :
    NeverExhausts (Sizing.lengthPrefixed header) := by
  unfold Sizing.lengthPrefixed
  split
  · exact neverExhausts_error rfl
  · exact neverExhausts_ite (neverExhausts_error rfl) (neverExhausts_ok _)

theorem neverExhausts_terminated (record : Bytes) :
    NeverExhausts (StoredValue.terminated record) := by
  have hpayload : NeverExhausts (StoredValue.payload record) := by
    refine (neverExhausts_lengthPrefixed record).bind fun length => ?_
    exact neverExhausts_ite (neverExhausts_ok _) (neverExhausts_error rfl)
  refine hpayload.bind fun text => ?_
  exact neverExhausts_ite (neverExhausts_error rfl) (neverExhausts_ok _)

/-! ## Numbers and names -/

theorem settles_ite {α : Type} {refused : Prop} [Decidable refused] {x y : Access α}
    (hx : Settles used hand x) (hy : Settles used hand y) :
    Settles used hand (if refused then x else y) := by
  split
  · exact hx
  · exact hy

theorem settles_integer (hc : c ∈ used) (hfree : hand.Free c.cacheId?) (address : UInt32) :
    Settles used hand (c.integer address) := by
  refine (settles_bytesOf hc hfree ⟨_, .integer⟩ fun _ => neverExhausts_ok _).bind
    fun bytes => ?_
  split
  · exact settles_pure _
  · exact settles_throw rfl

theorem settles_name {strings : Collection} (hc : strings ∈ used)
    (hfree : hand.Free strings.cacheId?) (value : ValueRecord) :
    Settles used hand (value.name strings) := by
  refine settles_ite (settles_throw rfl) ?_
  refine (settles_bytesOf hc hfree ⟨_, .string⟩ neverExhausts_lengthPrefixed).bind
    fun record => ?_
  exact settles_lift (neverExhausts_terminated record)

theorem settles_compareName {strings : Collection} (hc : strings ∈ used)
    (hfree : hand.Free strings.cacheId?) (target record : Bytes) :
    Settles used hand (ValueRecord.compareName strings target record) := by
  refine (settles_lift (neverExhausts_decodeValue record)).bind fun value => ?_
  exact (settles_name hc hfree value).bind fun name => settles_pure _

/-! ## The property index -/

/-- **Entering values** settles, one value at a time. -/
theorem settles_enter {values : Collection} (hc : values ∈ used)
    (hfree : hand.Free values.cacheId?) (profileId : UInt32) (index : PropertyIndex) (next : Nat)
    (listed : List UInt32) :
    Settles used hand (PropertyIndex.enter values profileId index next listed) := by
  induction listed generalizing index next with
  | nil => exact settles_pure index
  | cons valueIndex rest ih =>
      refine (settles_bytesOf hc hfree ⟨_, ValueRecord.sizing⟩ fun _ => neverExhausts_ok _).bind
        fun record => ?_
      refine (settles_lift (neverExhausts_decodeValue record)).bind fun value => ?_
      exact settles_ite (ih _ _) (ih _ _)

theorem settles_enterProfile {values : Collection} (hc : values ∈ used)
    (hfree : hand.Free values.cacheId?) (index : PropertyIndex) (profile : Profile) :
    Settles used hand (PropertyIndex.enterProfile values index profile) :=
  settles_ite (settles_throw rfl) (settles_enter hc hfree _ _ _ _)

theorem settles_offsetAt {offsets : Collection} (hc : offsets ∈ used)
    (hfree : hand.Free offsets.cacheId?) (number : Nat) :
    Settles used hand (PropertyIndex.offsetAt offsets number) := by
  refine (settles_bytesOf hc hfree ⟨_, ProfileOffset.sizing⟩ fun _ => neverExhausts_ok _).bind
    fun record => ?_
  exact settles_lift (neverExhausts_decodeOffset record)

variable {offsets profiles values : Collection}

theorem settles_enterFrom (hoffsets : offsets ∈ used) (hprofiles : profiles ∈ used)
    (hvalues : values ∈ used) (hfree : ∀ c ∈ used, hand.Free c.cacheId?) (number count : Nat)
    (index : PropertyIndex) :
    Settles used hand
      (PropertyIndex.enterFrom offsets profiles values number count index) := by
  induction count generalizing number index with
  | zero => exact settles_pure index
  | succ count ih =>
      refine (settles_offsetAt hoffsets (hfree _ hoffsets) number).bind fun offset => ?_
      refine (settles_bytesOf hprofiles (hfree _ hprofiles) ⟨_, Profile.sizing⟩
        neverExhausts_length).bind fun record => ?_
      refine (settles_lift (neverExhausts_decodeProfile record)).bind fun profile => ?_
      refine (settles_enterProfile hvalues (hfree _ hvalues) index profile).bind fun index => ?_
      exact ih (number + 1) index

/-- **Building the index** settles, profile by profile. -/
theorem settles_build (hoffsets : offsets ∈ used) (hprofiles : profiles ∈ used)
    (hvalues : values ∈ used) (hfree : ∀ c ∈ used, hand.Free c.cacheId?)
    (propertyCount : UInt32) :
    Settles used hand (PropertyIndex.build offsets profiles values propertyCount) := by
  have hrest : ∀ greatest : Nat, Settles used hand
      (if PropertyIndex.sizeLimit < (greatest + 1) * propertyCount.toNat then
        throw (.insufficientMemory ((greatest + 1) * propertyCount.toNat))
      else PropertyIndex.enterFrom offsets profiles values 0 offsets.count
        ⟨propertyCount.toNat, offsets.count, (greatest + 1) * propertyCount.toNat, 0, ∅⟩) := by
    intro greatest
    exact settles_ite (settles_throw rfl)
      (settles_enterFrom hoffsets hprofiles hvalues hfree _ _ _)
  have hlast := settles_offsetAt hoffsets (hfree _ hoffsets) (offsets.count - 1)
  unfold PropertyIndex.build
  refine settles_ite ?_ ?_
  · exact (settles_pure 0).bind hrest
  · exact (hlast.map _).bind hrest

/-! ## Names -/

/-- How a value is compared with a name. -/
def comparison (strings : Collection) (target : Bytes) (_ : UInt32) (item : Item)
    (world : Unit × Storage) : Except StoreError Ordering × (Unit × Storage) :=
  let (result, storage) := ValueRecord.compareName strings target item.bytes world.2
  (result, (world.1, storage))

/-- How looking for a name ends. -/
def named (values : Collection) (out : Except StoreError (SearchOutcome Item) × Unit)
    (storage : Storage) : Except StoreError (Option UInt32) × Storage :=
  match out.1 with
  | .error e => (.error e, storage)
  | .ok (.found index item) => (.ok (some index), storage.release item)
  | .ok .absent => (.ok none, storage)
  | .ok .exhausted => (.error (values.exhausted storage), storage)

theorem named_eq (values : Collection)
    (out : Except StoreError (SearchOutcome Item) × (Unit × Storage)) :
    named values (out.1, out.2.1) out.2.2 = match out with
      | (.error e, (_, after)) => (.error e, after)
      | (.ok (.found index item), (_, after)) => (.ok (some index), after.release item)
      | (.ok .absent, (_, after)) => (.ok none, after)
      | (.ok .exhausted, (_, after)) => (.error (values.exhausted after), after) := by
  rcases out with ⟨e | ⟨index, item⟩ | _ | _, ⟨⟩, after⟩ <;> rfl

theorem run_indexByName (values strings : Collection) (first last : UInt32) (name : String)
    (storage : Storage) : (ValueRecord.indexByName values strings first last name).run storage =
      let search := restate (values.binarySearch first last ValueRecord.sizing
        (comparison strings (Utf8.encode name))) ()
      named values (search storage).1 (search storage).2 :=
  (named_eq values (values.binarySearch first last ValueRecord.sizing
    (comparison strings (Utf8.encode name)) ((), storage))).symm

/-- Comparing a value with a name fetches from another cache than the value is
held in. -/
theorem carries_comparison {strings : Collection} (hstrings : strings ∈ used)
    (hapart : values.Apart strings) (hfree : hand.Free strings.cacheId?) {index : UInt32}
    {item : Item} (hgives : values.Gives ⟨index, ValueRecord.sizing⟩ (.ok (some item)))
    (hitem : hand.Free item.cacheId?) (target : Bytes) (starved : Bool) :
    Carries used none
      (fun starved after out => after = hand.take index item hitem ∧
        ∀ e, out.1 = .error e → e.isExhaustion → starved)
      starved (hand.take index item hitem) (restate (comparison strings target index item) ()) := by
  have hother : ∀ id, strings.cacheId? = some id → item.cacheId? ≠ some id := by
    intro id hid hheld
    rw [hgives.cache item (List.mem_singleton_self item)] at hheld
    split at hheld
    · cases hheld
    · exact hapart id hheld hid
  have hclear : (hand.take index item hitem).Free strings.cacheId? := hfree.take hother
  have hcompare := settles_compareName hstrings hclear target item.bytes starved
  exact (hcompare.mono fun starved after result h => .done (result, ()) h).andThen
    fun result storage => ((result, ()), storage)

/-- **Looking for a name** settles: each value is in hand while its name is
fetched, and that is in another cache. -/
theorem settles_indexByName {strings : Collection} (hvalues : values ∈ used)
    (hstrings : strings ∈ used) (hapart : values.Apart strings)
    (hfree : ∀ c ∈ used, hand.Free c.cacheId?) (first last : UInt32) (name : String) :
    Settles used hand (ValueRecord.indexByName values strings first last name) := by
  intro starved
  have hsearch : Carries used none
      (fun starved after out => Finishes values ValueRecord.sizing
        (fun starved e => e.isExhaustion → starved) hand starved after out.1) starved hand
      (restate (values.binarySearch first last ValueRecord.sizing
        (comparison strings (Utf8.encode name))) ()) := by
    refine carries_binarySearch hvalues (hfree values hvalues) ?_ ?_ first last () starved
    · intro index e starved hgives hexhausted
      rw [hgives.error (fun _ => neverExhausts_ok _) e rfl] at hexhausted
      cases hexhausted
    · intro index item hgives _ starved
      exact carries_comparison hstrings hapart (hfree strings hstrings) hgives _ _ starved
  refine ((hsearch.mono ?_).andThen (named values)).congr
    (run_indexByName values strings first last name)
  rintro starved after ⟨result, ⟨⟩⟩ hfinishes
  cases hfinishes with
  | found hgives => exact .release (.done _ (settles_result (neverExhausts_ok _) starved))
  | absent => exact .done _ (settles_result (neverExhausts_ok _) starved)
  | exhausted h => exact .look values fun e => .done _ ⟨rfl, fun _ _ _ => h⟩
  | failed h => exact .done _ ⟨rfl, fun e he => Except.error.inj he ▸ h⟩

end

/-! ## In every state -/

/-- What searches and scans over collections that are open leave behind.

* `integer`: getting a number.
* `search`: a search, when comparing records keeps nothing.
* `byName`: looking for a value by name, in two different collections.
* `build`: building a property index.
* `walk`: any number of steps of a walk whose records are dropped. -/
structure LeavesBehind (opened : List Collection) (storage : Storage) : Prop where
  integer : ∀ c ∈ opened, ∀ address,
    LeavesNothing [c] storage NeverExhausts (c.integer address).run
  search : ∀ c ∈ opened, ∀ {σ : Type} (lower upper : UInt32) (sizing : Sizing)
    (compare : UInt32 → Item → σ × Storage → Except StoreError Ordering × (σ × Storage))
    (state : σ), (∀ index item state, KeepsNothing opened (restate (compare index item) state)) →
      LeavesFound c opened sizing storage
        (restate (c.binarySearch lower upper sizing compare) state)
  byName : ∀ {i j : Nat} {values strings : Collection}, opened[i]? = some values →
    opened[j]? = some strings → i ≠ j → ∀ first last name,
      LeavesNothing [values, strings] storage NeverExhausts
        (ValueRecord.indexByName values strings first last name).run
  build : ∀ offsets ∈ opened, ∀ profiles ∈ opened, ∀ values ∈ opened, ∀ propertyCount,
    LeavesNothing [offsets, profiles, values] storage NeverExhausts
      (PropertyIndex.build offsets profiles values propertyCount).run
  walk : ∀ c ∈ opened, ∀ {α : Type} (sizing : Sizing)
    (row : UInt32 → Bytes → Except StoreError α) (most : Nat),
      LeavesNothing [c] storage (fun report => report.exhausted = false)
        (Walk.take row false most (c.walk sizing))

section

variable {α σ : Type} {opened used : List Collection} {storage : Storage} {items : List Item}
  {c : Collection}

theorem singleton_subset (hc : c ∈ opened) : [c] ⊆ opened :=
  List.cons_subset.mpr ⟨hc, List.nil_subset opened⟩

/-- **What ends with nothing in hand** leaves nothing behind. -/
theorem Carries.leavesNothing (h : Reached opened storage items) (hused : used ⊆ opened)
    {Served : α → Prop} {op : Storage → α × Storage}
    (hop : Carries used none
      (fun starved hand a => hand = .empty ∧ (starved = false → Served a)) false .empty op) :
    LeavesNothing used storage Served op := by
  obtain ⟨dims, hnow⟩ := h.accounted
  obtain ⟨starved, hand, ⟨rfl, hserved⟩, hafter, -, hroom⟩ :=
    hop.run hused (by simp) hnow hnow (by simp [Hand.empty])
  refine ⟨hop.mono fun _ _ _ h => h.1, ?_, fun hall => hserved (hroom hall rfl)⟩
  intro id pin
  rw [hafter.holders_eq, hnow.holders_eq]
  rfl

theorem Settles.leavesNothing (h : Reached opened storage items) (hused : used ⊆ opened)
    {op : Access α} (hop : Settles used .empty op) :
    LeavesNothing used storage NeverExhausts op.run := by
  refine Carries.leavesNothing h hused ((hop false).mono ?_)
  rintro starved hand result ⟨rfl, herror⟩
  refine ⟨rfl, ?_⟩
  rintro rfl e he
  exact eq_false_of_ne_true fun hexhausted => Bool.false_ne_true (herror e he hexhausted)

/-- A search whose comparisons keep nothing. -/
theorem carries_search (c : Collection) (lower upper : UInt32) (sizing : Sizing)
    {compare : UInt32 → Item → σ × Storage → Except StoreError Ordering × (σ × Storage)}
    (hkeeps : ∀ index item state, KeepsNothing opened (restate (compare index item) state))
    (state : σ) : Carries [c] (some opened)
      (fun starved hand out => Finishes c sizing (fun _ _ => True) .empty starved hand out.1)
      false .empty (restate (c.binarySearch lower upper sizing compare) state) := by
  refine carries_binarySearch (List.mem_singleton_self c) (Hand.free_empty _)
    (fun _ _ _ _ => trivial) ?_ lower upper state false
  intro index item hgives state starved
  exact .leave rfl (hkeeps index item state) fun out => .done out ⟨rfl, fun _ _ => trivial⟩

/-- **A search leaves the record that it finds.** -/
theorem Carries.leavesFound (h : Reached opened storage items) (hc : c ∈ opened)
    {sizing : Sizing} {op : Storage → (Except StoreError (SearchOutcome Item) × σ) × Storage}
    (hop : Carries [c] (some opened)
      (fun starved hand out => Finishes c sizing (fun _ _ => True) .empty starved hand out.1)
      false .empty op) : LeavesFound c opened sizing storage op := by
  obtain ⟨dims, hnow⟩ := h.accounted
  obtain ⟨starved, hand, hfinishes, hafter, hkeeps, hroom⟩ :=
    hop.run (singleton_subset hc) (by simp) hnow hnow (by simp [Hand.empty])
  refine ⟨hop, ?_, ?_, ?_⟩
  · intro hunfound id pin
    generalize (op storage).1.1 = result at hfinishes hunfound
    rw [hafter.holders_eq, hnow.holders_eq]
    cases hfinishes with
    | found _ => exact absurd rfl (hunfound _ _)
    | _ => rfl
  · intro index item hfound
    rw [hfound] at hfinishes
    cases hfinishes with
    | found hgives =>
        refine ⟨hgives.cache item (List.mem_singleton_self item),
          hkeeps _ List.mem_cons_self, ?_⟩
        intro id pin
        rw [hafter.holders_eq, hnow.holders_eq]
        show (nodesOf (item :: items)).count (id, pin) = _
        unfold nodesOf
        rw [List.filterMap_cons]
        cases hpin : item.pin? with
        | none => simp
        | some place => simp [List.count_cons]
  · intro hfree hexhausted
    have hstarved := hroom (by simpa using hfree) rfl
    rw [hexhausted] at hfinishes
    cases hfinishes with
    | exhausted h =>
        rw [hstarved] at h
        cases h

/-- Collections that were opened one after the other have different caches. -/
theorem Reached.apart (h : Reached opened storage items) {i j : Nat} {values strings : Collection}
    (hvalues : opened[i]? = some values) (hstrings : opened[j]? = some strings) (hne : i ≠ j) :
    values.Apart strings := by
  obtain ⟨dims, hnow⟩ := h.accounted
  obtain ⟨hi, rfl⟩ := List.getElem?_eq_some_iff.mp hvalues
  obtain ⟨hj, rfl⟩ := List.getElem?_eq_some_iff.mp hstrings
  have hapart := List.pairwise_iff_getElem.mp hnow.apart
  rcases Nat.lt_or_gt_of_ne hne with hlt | hlt
  · exact hapart i j hi hj hlt
  · intro id hid hsame
    exact hapart j i hj hi hlt id hsame hid

/-- **Searches and scans leave no references behind**, whatever they come to, in
every state that is reached. -/
theorem references_return (h : Reached opened storage items) : LeavesBehind opened storage where
  integer := by
    intro c hc address
    exact (settles_integer (List.mem_singleton_self c) (Hand.free_empty _) address).leavesNothing h
      (singleton_subset hc)
  search := by
    intro c hc σ lower upper sizing compare state hkeeps
    exact (carries_search c lower upper sizing hkeeps state).leavesFound h hc
  byName := by
    intro i j values strings hvalues hstrings hne first last name
    have hapart := h.apart hvalues hstrings hne
    refine (settles_indexByName (by simp) (by simp) hapart (fun _ _ => Hand.free_empty _)
      first last name).leavesNothing h ?_
    intro c hc
    rcases List.mem_pair.mp hc with rfl | rfl
    · exact List.mem_of_getElem? hvalues
    · exact List.mem_of_getElem? hstrings
  build := by
    intro offsets hoffsets profiles hprofiles values hvalues propertyCount
    refine (settles_build (by simp) (by simp) (by simp) (fun _ _ => Hand.free_empty _)
      propertyCount).leavesNothing h ?_
    intro c hc
    simp only [List.mem_cons, List.not_mem_nil, or_false] at hc
    rcases hc with rfl | rfl | rfl
    · exact hoffsets
    · exact hprofiles
    · exact hvalues
  walk := by
    intro c hc α sizing row most
    have hwalk : Carries [c] none ((c.walk sizing).Drops .empty) false .empty
        (Walk.take row false most (c.walk sizing)) :=
      carries_take (List.mem_singleton_self c) (Hand.free_empty _) row most false
    refine Carries.leavesNothing h (singleton_subset hc) (hwalk.mono ?_)
    rintro starved hand report ⟨rfl, hexhausted⟩
    refine ⟨rfl, ?_⟩
    rintro rfl
    refine eq_false_of_ne_true fun hstopped => ?_
    rcases hexhausted hstopped with hbefore | hstarved
    · cases hbefore
    · cases hstarved

end

/-- A number is got while another record is held; the reference to that stays the
only one. -/
theorem references_return_beside_one : ∃ c storage item, Reached [c] storage [item] ∧
    item.pin? = some (0, ⟨0, 1⟩) ∧
    ((c.integer 1).run storage).1 = .ok 20 ∧
    ((c.integer 1).run storage).2.holders 0 ⟨0, 1⟩ = 1 ∧
    ((c.integer 1).run storage).2.holders 0 ⟨0, 0⟩ = 0 := by
  let file : DataFile := ⟨[3, 0, 0, 0, 10, 0, 0, 0, 20, 0, 0, 0, 30, 0, 0, 0], true⟩
  let c : Collection := ⟨⟨3, 12, 4⟩, .file ⟨4, some 0⟩⟩
  let cache : Cache UInt32 := ⟨#[Cache.Shard.ofSize 2], Collection.spread, 2, 1, 0, 0⟩
  let start : Storage := ⟨file, ⟨1, [], 0, 0⟩, #[cache]⟩
  let item : Item := ⟨[10, 0, 0, 0], some (0, ⟨0, 1⟩)⟩
  let storage : Storage := ((c.get ⟨0, .integer⟩).run start).2
  have hpool : HandlePool.create 1 = .ok ⟨1, [], 0, 0⟩ := rfl
  have hopen : Collection.ofFile (.cached 2 1) ⟨4, 12, 3⟩ (.over file ⟨1, [], 0, 0⟩) =
      .ok ((c, 16), start) := rfl
  have hgot : ((c.get ⟨0, .integer⟩).run start).1 = .ok (some item) := by cbv
  have hreached : Reached [c] storage [item] := by
    have hget := (Reached.ofFile (.start file hpool) hopen).get List.mem_cons_self ⟨0, .integer⟩
    rw [hgot] at hget
    exact hget
  have hinteger := (references_return hreached).integer c List.mem_cons_self 1
  refine ⟨c, storage, item, hreached, rfl, by cbv, ?_, ?_⟩
  · rw [hinteger.holders]
    cbv
  · rw [hinteger.holders]
    cbv

end RecordStore
