import Mathlib
import RecordStore.Index.PropertyIndex
import RecordStore.Proofs.Collection.Sharing
import RecordStore.Proofs.Index.Decoding

/-!
# What an index has looked up

A `DataSet` is three collections, and what it says is decoded from their bytes
alone.  If its profile offsets are in the order of the ids, and the values of
each profile in the order of their properties, an index that can be built gives
the same answers as going through the data set does (`lookup_eq_scan`).

Of the values of a profile, one is entered if its property comes after those
entered before it.  As they are in order, that is the first with its property
(`Session.enter`).  Rows of other profiles are not touched, since ids do not
come twice (`Session.enterFrom`).
-/

namespace RecordStore

/-- The bytes of a collection from where the record at an address starts. -/
def Opening.bytesFrom (o : Opening) (address : UInt32) : Bytes :=
  (o.data.drop
    (o.header.start + UInt64.ofNat ((Layout.ofHeader o.header).offsetOf address)).toNat).take
      ((Layout.ofHeader o.header).size - (Layout.ofHeader o.header).offsetOf address)

/-! ## Data sets -/

/-- The collections that describe profiles. -/
structure DataSet where
  offsets : Opening
  profiles : Opening
  values : Opening

namespace DataSet

/-- The profile offset with a number. -/
def offset? (d : DataSet) (number : Nat) : Option ProfileOffset :=
  (ProfileOffset.decode (d.offsets.bytesFrom (UInt32.ofNat number))).toOption

/-- The profile at an offset. -/
def profile? (d : DataSet) (offset : UInt32) : Option Profile :=
  (Profile.decode (d.profiles.bytesFrom offset)).toOption

/-- The property that the value with an index belongs to. -/
def property? (d : DataSet) (valueIndex : UInt32) : Option Int :=
  (ValueRecord.decode (d.values.bytesFrom valueIndex)).toOption.map (·.propertyIndex.toInt)

/-- So many profile offsets, from a number on. -/
def listedFrom (d : DataSet) (number count : Nat) : List ProfileOffset :=
  (List.range' number count).filterMap d.offset?

/-- All profile offsets. -/
def listed (d : DataSet) : List ProfileOffset :=
  d.listedFrom 0 d.offsets.collection.count

/-- The first of some values that belongs to a property. -/
def first? (d : DataSet) (property : Nat) (values : List UInt32) : Option UInt32 :=
  values.find? fun valueIndex => d.property? valueIndex == some (property : Int)

/-- The first value of a property in the profile with an id, if some profile
offsets list it. -/
def scan? (d : DataSet) (listed : List ProfileOffset) (id : UInt32) (property : Nat) :
    Option UInt32 := do
  let offset ← listed.find? (·.profileId == id)
  let profile ← d.profile? offset.offset
  d.first? property profile.values

/-- A data set in order, as far as some profile offsets list it.

* `increasing`: profile offsets are in the order of their ids.
* `carried`: a profile has the id that it is listed with.
* `sorted`: its values are in the order of their properties, which may be
  negative. -/
structure Ordered (d : DataSet) (listed : List ProfileOffset) : Prop where
  increasing : listed.Pairwise fun offset later => offset.profileId < later.profileId
  carried : ∀ offset ∈ listed, ∀ profile, d.profile? offset.offset = some profile →
    profile.profileId = offset.profileId
  sorted : ∀ offset ∈ listed, ∀ profile, d.profile? offset.offset = some profile →
    (profile.values.filterMap d.property?).Pairwise (· ≤ ·)

/-- The collections of a data set are among those that were opened. -/
structure Held (d : DataSet) (opened : List Opening) : Prop where
  opened : ∀ o ∈ [d.offsets, d.profiles, d.values], o ∈ opened
  limit : ∀ o ∈ [d.offsets, d.profiles, d.values], o.data.length < Handle.positionLimit

end DataSet

/-! ## Tables -/

namespace PropertyIndex

/-- What is entered for a property of a profile. -/
def entry? (index : PropertyIndex) (id : UInt32) (property : Nat) : Option UInt32 :=
  index.table[index.place id property]?

/-- After something was entered: what was found where something was, and what
was there before elsewhere. -/
structure Filled (index after : PropertyIndex) (found : UInt32 → Nat → Option UInt32) :
    Prop where
  propertyCount : after.propertyCount = index.propertyCount
  entry : ∀ id, ∀ property < index.propertyCount,
    after.entry? id property = (found id property).or (index.entry? id property)

variable {index between after : PropertyIndex} {id other : UInt32} {property column : Nat}
  {found later : UInt32 → Nat → Option UInt32}

theorem Filled.refl (index : PropertyIndex) : index.Filled index fun _ _ => none :=
  ⟨rfl, fun _ _ _ => rfl⟩

theorem Filled.trans (h : index.Filled between found) (h' : between.Filled after later) :
    index.Filled after fun id property => (later id property).or (found id property) := by
  refine ⟨h'.propertyCount.trans h.propertyCount, ?_⟩
  intro id property hlt
  rw [h'.entry id property (h.propertyCount ▸ hlt), h.entry id property hlt, Option.or_assoc]

theorem Filled.congr (h : index.Filled after found)
    (hsame : ∀ id, ∀ property < index.propertyCount, found id property = later id property) :
    index.Filled after later :=
  ⟨h.propertyCount, fun id property hlt => hsame id property hlt ▸ h.entry id property hlt⟩

/-- **No two properties have the same place.** -/
theorem place_inj (hproperty : property < index.propertyCount)
    (hcolumn : column < index.propertyCount)
    (h : index.place id property = index.place other column) : id = other ∧ property = column := by
  have hpos : 0 < index.propertyCount := (Nat.zero_le _).trans_lt hproperty
  unfold place at h
  have hrow := congrArg (· / index.propertyCount) h
  have hrest := congrArg (· % index.propertyCount) h
  simp only [Nat.mul_add_mod_self_right, Nat.mod_eq_of_lt, hproperty, hcolumn] at hrest
  rw [hrest] at h
  exact ⟨UInt32.toNat_inj.mp (Nat.eq_of_mul_eq_mul_right hpos (Nat.add_right_cancel h)), hrest⟩

/-- An index with one more value. -/
def insert (index : PropertyIndex) (id : UInt32) (property : Nat) (valueIndex : UInt32) :
    PropertyIndex :=
  { index with
    counter := index.counter + 1
    table := index.table.insert (index.place id property) valueIndex }

theorem filled_insert (hproperty : property < index.propertyCount) (valueIndex : UInt32) :
    index.Filled (index.insert id property valueIndex) fun other column =>
      if other = id ∧ column = property then some valueIndex else none := by
  refine ⟨rfl, ?_⟩
  intro other column hcolumn
  show (index.table.insert (index.place id property) valueIndex)[index.place other column]? = _
  rw [Std.HashMap.getElem?_insert]
  by_cases hsame : other = id ∧ column = property
  · obtain ⟨rfl, rfl⟩ := hsame
    rw [if_pos (beq_self_eq_true _), if_pos ⟨rfl, rfl⟩]
    rfl
  · rw [if_neg hsame, if_neg]
    · rfl
    · intro hplace
      obtain ⟨rfl, rfl⟩ := place_inj hproperty hcolumn (beq_iff_eq.mp hplace)
      exact hsame ⟨rfl, rfl⟩

end PropertyIndex

/-! ## Reading a data set -/

section

open PropertyIndex

variable {file : DataFile} {opened : List Opening} {storage after : Storage} {items : List Item}
  {o : Opening} {d : DataSet}

/-- **What is decoded is what the data set has**, however much of it was
fetched. -/
theorem Session.decoded {α : Type} {decode : Bytes → Except StoreError α} {a : α}
    (hdecode : ∀ {bytes whole}, bytes <+: whole → decode bytes = .ok a → decode whole = .ok a)
    (h : Session file opened storage items) (ho : o ∈ opened)
    (hlimit : o.data.length < Handle.positionLimit) {key : Key} {bytes : Bytes}
    (hbytes : (o.collection.bytesOf key).run storage = (.ok bytes, after))
    (hdecoded : decode bytes = .ok a) :
    (decode (o.bytesFrom key.address)).toOption = some a ∧ Session file opened after items := by
  obtain ⟨⟨item, hitem, rfl⟩, hafter⟩ := h.bytesOf ho hbytes
  obtain ⟨hinside, hextract⟩ := h.extract ho hlimit hitem
  have hfront : item.bytes <+: o.bytesFrom key.address := by
    rw [hextract, Opening.bytesFrom]
    exact List.take_prefix_take_left (by omega)
  rw [hdecode hfront hdecoded]
  exact ⟨rfl, hafter⟩

theorem Session.offsetAt (h : Session file opened storage items) (hd : d.Held opened)
    {number : Nat} {offset : ProfileOffset}
    (hrun : (PropertyIndex.offsetAt d.offsets.collection number).run storage =
      (.ok offset, after)) : d.offset? number = some offset ∧ Session file opened after items := by
  obtain ⟨bytes, between, hbytes, hdecode⟩ := run_bind_eq_ok_iff.mp hrun
  obtain ⟨hdecoded, rfl⟩ := run_liftM_eq_ok_iff.mp hdecode
  have hfetched := h.decoded ProfileOffset.decode_of_prefix (hd.opened d.offsets (by simp))
    (hd.limit d.offsets (by simp)) hbytes hdecoded
  exact hfetched

/-! ## Building -/

/-- What a profile has for the properties from `next` on. -/
def DataSet.row? (d : DataSet) (profileId : UInt32) (next : Nat) (values : List UInt32)
    (id : UInt32) (property : Nat) : Option UInt32 :=
  if id = profileId ∧ next ≤ property then d.first? property values else none

section

variable {profileId valueIndex id : UInt32} {rest : List UInt32} {property : Int}
  {column next count : Nat}

theorem DataSet.first?_cons (hproperty : d.property? valueIndex = some property) :
    d.first? column (valueIndex :: rest) =
      if property = column then some valueIndex else d.first? column rest := by
  rw [first?, List.find?_cons, hproperty, first?]
  by_cases hsame : property = column
  · rw [if_pos hsame, hsame, beq_self_eq_true]
  · rw [if_neg hsame, beq_false_of_ne fun h => hsame (Option.some.inj h)]

/-- Values in order have left behind what comes before the first of them. -/
theorem DataSet.first?_of_lt (hlater : ∀ other ∈ rest.filterMap d.property?, property ≤ other)
    (hlt : column < property) : d.first? column rest = none := by
  rw [first?, List.find?_eq_none]
  intro other hother hsame
  have hcolumn := hlater column (List.mem_filterMap.mpr ⟨other, hother, beq_iff_eq.mp hsame⟩)
  omega

/-- A value that is entered is the first of its property, and the ones that are
not in order with it are none. -/
theorem DataSet.row?_of_entered (hproperty : d.property? valueIndex = some property)
    (hlater : ∀ other ∈ rest.filterMap d.property?, property ≤ other) (hnext : next ≤ property) :
    (d.row? profileId (property.toNat + 1) rest id column).or
        (if id = profileId ∧ column = property.toNat then some valueIndex else none) =
      d.row? profileId next (valueIndex :: rest) id column := by
  unfold row?
  by_cases hid : id = profileId
  · simp only [hid, true_and]
    rw [first?_cons hproperty]
    rcases lt_trichotomy (column : Int) property with hlt | hsame | hgt
    · rw [if_neg (by omega), if_neg (by omega), if_neg (Int.ne_of_gt hlt), first?_of_lt hlater hlt]
      exact (ite_self none).symm
    · rw [if_neg (by omega), if_pos (by omega), if_pos (by omega), if_pos hsame.symm]
      rfl
    · rw [if_pos (by omega), if_neg (by omega), if_pos (by omega), if_neg (by omega)]
      exact Option.or_none
  · rw [if_neg fun h => hid h.1, if_neg fun h => hid h.1, if_neg fun h => hid h.1]
    rfl

/-- A value that is not entered is of a property that is not looked for, or that
has been. -/
theorem DataSet.row?_of_not_entered (hproperty : d.property? valueIndex = some property)
    (hnot : ¬ (next ≤ property ∧ property < count)) (hcolumn : column < count) :
    d.row? profileId next rest id column =
      d.row? profileId next (valueIndex :: rest) id column := by
  unfold row?
  rw [first?_cons hproperty]
  split
  · next hthere =>
      rw [if_neg]
      omega
  · rfl

end

/-- **Values in order are entered where they are the first of their property.** -/
theorem Session.enter (h : Session file opened storage items) (hd : d.Held opened)
    {profileId : UInt32} {index built : PropertyIndex} {next : Nat} {values : List UInt32}
    (hsorted : (values.filterMap d.property?).Pairwise (· ≤ ·))
    (hrun : (PropertyIndex.enter d.values.collection profileId index next values).run storage =
      (.ok built, after)) :
    index.Filled built (d.row? profileId next values) ∧ Session file opened after items := by
  induction values generalizing index next storage with
  | nil =>
      obtain ⟨rfl, rfl⟩ := run_pure_eq_ok_iff.mp hrun
      refine ⟨(Filled.refl index).congr ?_, h⟩
      intro id property _
      exact (ite_self none).symm
  | cons valueIndex rest ih =>
      obtain ⟨bytes, between, hbytes, hrest⟩ := run_bind_eq_ok_iff.mp hrun
      obtain ⟨value, between', hdecode, hrest⟩ := run_bind_eq_ok_iff.mp hrest
      obtain ⟨hdecoded, rfl⟩ := run_liftM_eq_ok_iff.mp hdecode
      obtain ⟨hvalue, hbetween⟩ := h.decoded ValueRecord.decode_of_prefix (hd.opened _ (by simp))
        (hd.limit _ (by simp)) hbytes hdecoded
      have hproperty : d.property? valueIndex = some value.propertyIndex.toInt := by
        rw [DataSet.property?, hvalue]
        rfl
      rw [List.filterMap_cons_some hproperty, List.pairwise_cons] at hsorted
      obtain ⟨hlater, hsorted⟩ := hsorted
      generalize value.propertyIndex.toInt = property at hrest hproperty hlater
      simp only at hrest
      split at hrest
      · next hentered =>
          obtain ⟨hfilled, hafter⟩ := ih hbetween hsorted hrest
          have hinserted : index.Filled (index.insert profileId property.toNat valueIndex) _ :=
            filled_insert (by omega) valueIndex
          refine ⟨(hinserted.trans hfilled).congr ?_, hafter⟩
          intro id column _
          exact DataSet.row?_of_entered hproperty hlater hentered.1
      · next hskipped =>
          obtain ⟨hfilled, hafter⟩ := ih hbetween hsorted hrest
          refine ⟨hfilled.congr ?_, hafter⟩
          intro id column hcolumn
          exact DataSet.row?_of_not_entered hproperty hskipped hcolumn

theorem Session.enterProfile (h : Session file opened storage items) (hd : d.Held opened)
    {profile : Profile} {index built : PropertyIndex}
    (hsorted : (profile.values.filterMap d.property?).Pairwise (· ≤ ·))
    (hrun : (PropertyIndex.enterProfile d.values.collection index profile).run storage =
      (.ok built, after)) :
    index.Filled built (d.row? profile.profileId 0 profile.values) ∧
      Session file opened after items :=
  h.enter hd hsorted (run_of_guard hrun)

/-- The first of some profile offsets in order is the only one with its id. -/
theorem DataSet.Ordered.scan?_cons {offset : ProfileOffset} {listed : List ProfileOffset}
    (h : d.Ordered (offset :: listed)) {profile : Profile}
    (hprofile : d.profile? offset.offset = some profile) (id : UInt32) (property : Nat) :
    (d.scan? listed id property).or (d.row? profile.profileId 0 profile.values id property) =
      d.scan? (offset :: listed) id property := by
  obtain ⟨hlater, -⟩ := List.pairwise_cons.mp h.increasing
  rw [h.carried offset List.mem_cons_self profile hprofile, DataSet.row?]
  unfold DataSet.scan?
  rw [List.find?_cons]
  by_cases hid : offset.profileId = id
  · have hnone : listed.find? (·.profileId == id) = none := by
      rw [List.find?_eq_none]
      intro later hmem hsame
      have hlt := hlater later hmem
      rw [beq_iff_eq.mp hsame, hid] at hlt
      exact UInt32.lt_irrefl _ hlt
    rw [hnone, beq_iff_eq.mpr hid, if_pos ⟨hid.symm, Nat.zero_le _⟩]
    simp [hprofile]
  · rw [beq_false_of_ne hid, if_neg fun hsame => hid hsame.1.symm]
    exact Option.or_none

theorem DataSet.Ordered.tail {offset : ProfileOffset} {listed : List ProfileOffset}
    (h : d.Ordered (offset :: listed)) : d.Ordered listed :=
  ⟨(List.pairwise_cons.mp h.increasing).2,
    fun other hother => h.carried other (List.mem_cons_of_mem _ hother),
    fun other hother => h.sorted other (List.mem_cons_of_mem _ hother)⟩

/-- **Profiles in order are entered one after another**, each in its own row. -/
theorem Session.enterFrom (h : Session file opened storage items) (hd : d.Held opened)
    {number count : Nat} {index built : PropertyIndex}
    (hordered : d.Ordered (d.listedFrom number count))
    (hrun : (PropertyIndex.enterFrom d.offsets.collection d.profiles.collection
      d.values.collection number count index).run storage = (.ok built, after)) :
    index.Filled built (d.scan? (d.listedFrom number count)) ∧
      Session file opened after items := by
  induction count generalizing number index storage with
  | zero =>
      obtain ⟨rfl, rfl⟩ := run_pure_eq_ok_iff.mp hrun
      exact ⟨Filled.refl index, h⟩
  | succ count ih =>
      obtain ⟨offset, _, hoffset, hrest⟩ := run_bind_eq_ok_iff.mp hrun
      obtain ⟨bytes, _, hbytes, hrest⟩ := run_bind_eq_ok_iff.mp hrest
      obtain ⟨profile, _, hdecode, hrest⟩ := run_bind_eq_ok_iff.mp hrest
      obtain ⟨hdecoded, rfl⟩ := run_liftM_eq_ok_iff.mp hdecode
      obtain ⟨entered, _, hentered, hrest⟩ := run_bind_eq_ok_iff.mp hrest
      obtain ⟨hoffset, hsession⟩ := h.offsetAt hd hoffset
      obtain ⟨hprofile, hsession⟩ := hsession.decoded Profile.decode_of_prefix
        (hd.opened _ (by simp)) (hd.limit _ (by simp)) hbytes hdecoded
      have hlisted : d.listedFrom number (count + 1) =
          offset :: d.listedFrom (number + 1) count := by
        rw [DataSet.listedFrom, List.range'_succ, List.filterMap_cons_some hoffset]
        rfl
      rw [hlisted] at hordered ⊢
      have hsorted := hordered.sorted offset List.mem_cons_self profile hprofile
      obtain ⟨hfilled, hsession⟩ := hsession.enterProfile hd hsorted hentered
      obtain ⟨hfilled', hsession⟩ := ih hsession hordered.tail hrest
      refine ⟨(hfilled.trans hfilled').congr ?_, hsession⟩
      intro id property _
      exact hordered.scan?_cons hprofile id property

/-- What going through a data set finds for a property of a profile. -/
def DataSet.lookup? (d : DataSet) (propertyCount id property : UInt32) : Option UInt32 :=
  if property < propertyCount then d.scan? d.listed id property.toNat else none

/-- An index that could be built is an empty one with the profiles entered. -/
theorem Session.build (h : Session file opened storage items) (hd : d.Held opened)
    {propertyCount : UInt32} {index : PropertyIndex}
    (hrun : (PropertyIndex.build d.offsets.collection d.profiles.collection
      d.values.collection propertyCount).run storage = (.ok index, after)) :
    ∃ size between, Session file opened between items ∧
      (PropertyIndex.enterFrom d.offsets.collection d.profiles.collection d.values.collection 0
        d.offsets.collection.count
        ⟨propertyCount.toNat, d.offsets.collection.count, size, 0, ∅⟩).run between =
          (.ok index, after) := by
  unfold PropertyIndex.build at hrun
  split at hrun
  · exact ⟨_, storage, h, run_of_guard hrun⟩
  · obtain ⟨greatest, between, hgreatest, hrun⟩ := run_bind_eq_ok_iff.mp hrun
    obtain ⟨offset, hoffset, -⟩ := run_map_eq_ok_iff.mp hgreatest
    exact ⟨_, between, (h.offsetAt hd hoffset).2, run_of_guard hrun⟩

/-- **An index gives what going through its data set finds.** -/
theorem lookup_eq_scan (hsession : Session file opened storage items) (hd : d.Held opened)
    (hordered : d.Ordered d.listed) {propertyCount : UInt32} {index : PropertyIndex}
    (hbuild : (PropertyIndex.build d.offsets.collection d.profiles.collection
      d.values.collection propertyCount).run storage = (.ok index, after))
    (id property : UInt32) : index.lookup id property = d.lookup? propertyCount id property := by
  obtain ⟨size, between, hbetween, hentered⟩ := hsession.build hd hbuild
  obtain ⟨⟨hcount, hentry⟩, -⟩ := hbetween.enterFrom hd hordered hentered
  unfold PropertyIndex.lookup DataSet.lookup?
  rw [hcount]
  by_cases hlt : property < propertyCount
  · have hcolumn := UInt32.lt_iff_toNat_lt.mp hlt
    have hempty : PropertyIndex.entry? ⟨propertyCount.toNat, d.offsets.collection.count, size, 0, ∅⟩
        id property.toNat = none := Std.HashMap.getElem?_empty
    rw [if_pos hcolumn, if_pos hlt]
    refine (hentry id property.toNat hcolumn).trans ?_
    rw [hempty, Option.or_none]
    rfl
  · rw [if_neg fun h => hlt (UInt32.lt_iff_toNat_lt.mpr h), if_neg hlt]

end

/-- Two profiles, with ids 1 and 3.  The first value has a negative property,
and the two after it have the same. -/
theorem lookup_eq_scan_two : ∃ (d : DataSet) (storage after : Storage) (index : PropertyIndex),
    d.Ordered d.listed ∧
      (PropertyIndex.build d.offsets.collection d.profiles.collection d.values.collection 2).run
        storage = (.ok index, after) ∧
      d.lookup? 2 1 0 = some 1 ∧ index.lookup 1 0 = some 1 ∧ index.lookup 1 1 = none ∧
      index.lookup 3 0 = some 2 := by
  let values : Bytes := [255, 255, 0, 0, 0, 0, 0, 0, 0, 0, 0, 0, 0, 0] ++ List.replicate 28 0
  let profiles : Bytes := [0, 1, 0, 0, 0, 3, 0, 0, 0, 0, 0, 0, 0, 1, 0, 0, 0, 2, 0, 0, 0,
    0, 3, 0, 0, 0, 1, 0, 0, 0, 2, 0, 0, 0]
  let offsets : Bytes := [1, 0, 0, 0, 0, 0, 0, 0, 3, 0, 0, 0, 21, 0, 0, 0]
  let resident (bytes : Bytes) (header : Header) : Opening :=
    let layout := Layout.ofHeader header
    ⟨bytes, header, ⟨layout, .memory (Resident.ofBytes bytes layout.elementSize)⟩⟩
  let d : DataSet :=
    ⟨resident offsets ⟨0, 16, 2⟩, resident profiles ⟨0, 34, 0⟩, resident values ⟨0, 42, 3⟩⟩
  let file : DataFile := ⟨[], true⟩
  let storage : Storage := .over file ⟨1, [], 0, 0⟩
  have hvalues : Collection.ofReader ⟨values, 0⟩ d.values.header =
    .ok (d.values.collection, ⟨values, 42⟩) := rfl
  have hprofiles : Collection.ofReader ⟨profiles, 0⟩ d.profiles.header =
    .ok (d.profiles.collection, ⟨profiles, 34⟩) := rfl
  have hoffsets : Collection.ofReader ⟨offsets, 0⟩ d.offsets.header =
    .ok (d.offsets.collection, ⟨offsets, 16⟩) := rfl
  have hstart : Session file [] storage [] := .start rfl
  have hsession : Session file [d.values] storage [] :=
    .ofReader hstart (Nat.zero_le _) hvalues
  have hsession : Session file [d.profiles, d.values] storage [] :=
    .ofReader hsession (Nat.zero_le _) hprofiles
  have hsession : Session file [d.offsets, d.profiles, d.values] storage [] :=
    .ofReader hsession (Nat.zero_le _) hoffsets
  have hd : d.Held [d.offsets, d.profiles, d.values] := ⟨fun _ ho => ho, by decide +kernel⟩
  have hlisted : d.listed = [⟨1, 0⟩, ⟨3, 21⟩] := by decide +kernel
  have hfirst : d.profile? 0 = some ⟨0, 1, 3, [0, 1, 2]⟩ := by decide +kernel
  have hsecond : d.profile? 21 = some ⟨0, 3, 1, [2]⟩ := by decide +kernel
  have hordered : d.Ordered d.listed := by
    rw [hlisted]
    refine ⟨by decide, ?_, ?_⟩
    · simp [hfirst, hsecond]
    · simp only [List.forall_mem_cons, hfirst, hsecond, Option.some.injEq, forall_eq']
      decide +kernel
  have hdone : ((PropertyIndex.build d.offsets.collection d.profiles.collection
      d.values.collection 2).run storage).1.isOk = true := by decide +kernel
  generalize hbuild : (PropertyIndex.build d.offsets.collection d.profiles.collection
    d.values.collection 2).run storage = built at hdone
  obtain ⟨_ | index, after⟩ := built
  · cases hdone
  have h := lookup_eq_scan hsession hd hordered hbuild
  refine ⟨d, storage, after, index, hordered, hbuild, by decide +kernel, ?_, ?_, ?_⟩
  · rw [h]
    decide +kernel
  · rw [h]
    decide +kernel
  · rw [h]
    decide +kernel

end RecordStore
