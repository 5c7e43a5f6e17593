import Mathlib
import RecordStore.Proofs.Index.Lookup

/-!
# How many values an index has

An index counts the values it enters (`PropertyIndex.filled`), in 32 bits.  What
it enters is told by its data set, in order or not: `DataSet.entries` lists it, and an
index that could be built is an empty one with these entries inserted one
after another (`Session.build_eq`).

Within a profile no place is written twice, since the properties of its entries
increase (`DataSet.entered_increasing`).  Nothing keeps two profile offsets from
leading to profiles with the same id, though, such as to the same profile; then
the counter counts a place twice.  As long as it does not start over, it is the
number of places with a value exactly if that does not happen
(`filled_eq_ncard_iff`).
-/

namespace RecordStore

/-- A value that is entered for a property of a profile. -/
structure Entry where
  profileId : UInt32
  property : Nat
  valueIndex : UInt32
  deriving DecidableEq, Repr

namespace Entry

/-- What an entry is looked up by. -/
def pair (entry : Entry) : UInt32 × UInt32 :=
  (entry.profileId, UInt32.ofNat entry.property)

end Entry

/-! ## What is entered -/

namespace DataSet

variable {d : DataSet} {profileId : UInt32} {count next : Nat} {values : List UInt32}

/-- The values of a profile that are entered, from property `next` on: each has
a property that comes after those of the ones before it. -/
def entered (d : DataSet) (count : Nat) (profileId : UInt32) (next : Nat) :
    List UInt32 → List Entry
  | [] => []
  | valueIndex :: rest =>
    match d.property? valueIndex with
    | none => entered d count profileId next rest
    | some property =>
      if next ≤ property ∧ property < count then
        ⟨profileId, property.toNat, valueIndex⟩ ::
          entered d count profileId (property.toNat + 1) rest
      else entered d count profileId next rest

/-- The profiles that some profile offsets lead to. -/
def profilesOf (d : DataSet) (listed : List ProfileOffset) : List Profile :=
  listed.filterMap fun offset => d.profile? offset.offset

/-- The values of some profiles that are entered. -/
def entries (d : DataSet) (count : Nat) (profiles : List Profile) : List Entry :=
  profiles.flatMap fun profile => d.entered count profile.profileId 0 profile.values

/-- An entry is in the row of its profile, in a column that is not left behind. -/
theorem mem_entered {entry : Entry} (h : entry ∈ d.entered count profileId next values) :
    entry.profileId = profileId ∧ next ≤ entry.property ∧ entry.property < count := by
  induction values generalizing next with
  | nil => cases h
  | cons valueIndex rest ih =>
      unfold entered at h
      split at h
      · exact ih h
      · split at h
        · rename_i hentered
          rcases List.mem_cons.mp h with rfl | hrest
          · exact ⟨rfl, by dsimp only; omega, by dsimp only; omega⟩
          · obtain ⟨hid, hnext, hcount⟩ := ih hrest
            exact ⟨hid, by omega, hcount⟩
        · exact ih h

/-- **A profile enters no property twice**, whatever the order of its values. -/
theorem entered_increasing (d : DataSet) (count : Nat) (profileId : UInt32) (next : Nat)
    (values : List UInt32) :
    (d.entered count profileId next values).Pairwise fun entry later =>
      entry.property < later.property := by
  induction values generalizing next with
  | nil => exact .nil
  | cons valueIndex rest ih =>
      unfold entered
      split
      · exact ih next
      · split
        · refine List.pairwise_cons.mpr ⟨?_, ih _⟩
          intro later hlater
          exact (mem_entered hlater).2.1
        · exact ih next

theorem entries_cons (d : DataSet) (count : Nat) (profile : Profile) (rest : List Profile) :
    d.entries count (profile :: rest) =
      d.entered count profile.profileId 0 profile.values ++ d.entries count rest :=
  List.flatMap_cons

theorem property_lt_of_mem_entries {profiles : List Profile} {entry : Entry}
    (h : entry ∈ d.entries count profiles) : entry.property < count := by
  obtain ⟨profile, -, hentry⟩ := List.mem_flatMap.mp h
  exact (mem_entered hentry).2.2

/-- Properties that an index can have are told apart by 32 bits. -/
theorem pair_inj {entry other : Entry} {propertyCount : UInt32}
    (hentry : entry.property < propertyCount.toNat) (hother : other.property < propertyCount.toNat)
    (h : entry.pair = other.pair) :
    entry.profileId = other.profileId ∧ entry.property = other.property := by
  obtain ⟨hid, hproperty⟩ := Prod.mk.inj h
  have hlimit := propertyCount.toNat_lt
  have hnat := congrArg UInt32.toNat hproperty
  rw [UInt32.toNat_ofNat', UInt32.toNat_ofNat', Nat.mod_eq_of_lt (by omega),
    Nat.mod_eq_of_lt (by omega)] at hnat
  exact ⟨hid, hnat⟩

/-- Profiles that have different ids enter nothing twice. -/
theorem nodup_pairs {profiles : List Profile} {propertyCount : UInt32}
    (hids : (profiles.map Profile.profileId).Nodup) :
    ((d.entries propertyCount.toNat profiles).map Entry.pair).Nodup := by
  induction profiles with
  | nil => exact List.nodup_nil
  | cons profile rest ih =>
      obtain ⟨hnew, hrest⟩ := List.nodup_cons.mp hids
      rw [entries_cons, List.map_append, List.nodup_append]
      refine ⟨?_, ih hrest, ?_⟩
      · refine List.pairwise_map.mpr ?_
        refine (entered_increasing d _ profile.profileId 0 profile.values).imp_of_mem ?_
        intro entry later hentry hlater hlt hsame
        obtain ⟨-, hproperty⟩ :=
          pair_inj (mem_entered hentry).2.2 (mem_entered hlater).2.2 hsame
        omega
      · intro pair hfirst other hsecond hsame
        obtain ⟨entry, hentry, rfl⟩ := List.mem_map.mp hfirst
        obtain ⟨later, hlater, rfl⟩ := List.mem_map.mp hsecond
        obtain ⟨profile', hprofile', hlater⟩ := List.mem_flatMap.mp hlater
        obtain ⟨hid, -⟩ := pair_inj (mem_entered hentry).2.2 (mem_entered hlater).2.2 hsame
        rw [(mem_entered hentry).1, (mem_entered hlater).1] at hid
        exact hnew (List.mem_map.mpr ⟨profile', hprofile', hid.symm⟩)

end DataSet

/-! ## What inserting does -/

namespace PropertyIndex

variable {index : PropertyIndex} {entries : List Entry}

/-- An index with some more values. -/
def insertAll (index : PropertyIndex) (entries : List Entry) : PropertyIndex :=
  entries.foldl (fun index entry => index.insert entry.profileId entry.property entry.valueIndex)
    index

theorem insertAll_append (index : PropertyIndex) (early late : List Entry) :
    index.insertAll (early ++ late) = (index.insertAll early).insertAll late :=
  List.foldl_append

@[simp] theorem propertyCount_insertAll (index : PropertyIndex) (entries : List Entry) :
    (index.insertAll entries).propertyCount = index.propertyCount := by
  induction entries generalizing index with
  | nil => rfl
  | cons entry rest ih => exact ih _

/-- **Every insertion counts**, also into a place that has a value. -/
theorem counter_insertAll (index : PropertyIndex) (entries : List Entry) :
    (index.insertAll entries).counter = index.counter + UInt32.ofNat entries.length := by
  induction entries generalizing index with
  | nil => exact (UInt32.add_zero _).symm
  | cons entry rest ih =>
      calc (index.insertAll (entry :: rest)).counter
          = index.counter + 1 + UInt32.ofNat rest.length := ih _
        _ = index.counter + (UInt32.ofNat rest.length + 1) := by
            rw [UInt32.add_assoc, UInt32.add_comm 1]
        _ = index.counter + UInt32.ofNat (rest.length + 1) := by
            rw [UInt32.ofNat_add]
            rfl

/-- A place has a value if something is entered there, or if it had one. -/
theorem isSome_entry?_insertAll (hentries : ∀ entry ∈ entries, entry.property < index.propertyCount)
    {id : UInt32} {property : Nat} (hproperty : property < index.propertyCount) :
    (PropertyIndex.entry? (index.insertAll entries) id property).isSome ↔
      (∃ entry ∈ entries, entry.profileId = id ∧ entry.property = property) ∨
        (index.entry? id property).isSome := by
  induction entries generalizing index with
  | nil => simp [insertAll]
  | cons entry rest ih =>
      obtain ⟨hentry, hrest⟩ := List.forall_mem_cons.mp hentries
      have hinsert : index.Filled
          (index.insert entry.profileId entry.property entry.valueIndex) _ :=
        filled_insert hentry entry.valueIndex
      have hlater : ∀ other ∈ rest, other.property <
          (index.insert entry.profileId entry.property entry.valueIndex).propertyCount := hrest
      refine (ih hlater hproperty).trans ?_
      rw [hinsert.entry id property hproperty, List.exists_mem_cons_iff]
      split
      · rename_i hsame
        simp [hsame]
      · rename_i hother
        have hfirst : ¬ (entry.profileId = id ∧ entry.property = property) :=
          fun h => hother ⟨h.1.symm, h.2.symm⟩
        simp [hfirst]

/-- An index without values. -/
def blank (propertyCount : UInt32) (profileCount size : Nat) : PropertyIndex :=
  ⟨propertyCount.toNat, profileCount, size, 0, ∅⟩

@[simp] theorem propertyCount_blank (propertyCount : UInt32) (profileCount size : Nat) :
    (blank propertyCount profileCount size).propertyCount = propertyCount.toNat := rfl

theorem lookup_eq_entry? (index : PropertyIndex) (id property : UInt32) :
    index.lookup id property =
      if property.toNat < index.propertyCount then index.entry? id property.toNat else none := rfl

/-- What has a value in an index: a profile id and a property of it. -/
def found (index : PropertyIndex) : Set (UInt32 × UInt32) :=
  {pair | (index.lookup pair.1 pair.2).isSome}

/-- What was entered into an empty index is what has a value in it. -/
theorem found_insertAll {propertyCount : UInt32} {profileCount size : Nat}
    (hentries : ∀ entry ∈ entries, entry.property < propertyCount.toNat) :
    ((blank propertyCount profileCount size).insertAll entries).found =
      {pair | pair ∈ entries.map Entry.pair} := by
  ext ⟨id, property⟩
  have hlimit := propertyCount.toNat_lt
  simp only [found, lookup_eq_entry?, propertyCount_insertAll, propertyCount_blank,
    Set.mem_ofPred_eq, List.mem_map]
  by_cases hproperty : property.toNat < propertyCount.toNat
  · have hempty : PropertyIndex.entry? (blank propertyCount profileCount size) id property.toNat =
        none :=
      Std.HashMap.getElem?_empty
    rw [if_pos hproperty]
    refine (isSome_entry?_insertAll hentries hproperty).trans ?_
    rw [hempty, Option.isSome_none, or_iff_left Bool.false_ne_true]
    refine exists_congr fun entry => and_congr_right fun hmem => ?_
    have hentry := hentries entry hmem
    have hcolumn : UInt32.ofNat entry.property = property ↔ entry.property = property.toNat := by
      rw [← UInt32.toNat_inj, UInt32.toNat_ofNat', Nat.mod_eq_of_lt (by omega)]
    rw [Entry.pair, Prod.mk.injEq, hcolumn]
  · rw [if_neg hproperty]
    simp only [Option.isSome_none, Bool.false_eq_true, false_iff, not_exists, not_and]
    intro entry hmem hpair
    have hentry := hentries entry hmem
    obtain ⟨-, rfl⟩ := Prod.mk.inj hpair
    rw [UInt32.toNat_ofNat', Nat.mod_eq_of_lt (by omega)] at hproperty
    exact hproperty hentry

end PropertyIndex

/-! ## Building -/

section

open PropertyIndex

variable {file : DataFile} {opened : List Opening} {storage after : Storage} {items : List Item}
  {d : DataSet}

/-- **Entering is inserting.**  The values of a profile that are entered are
told by the data set, in whatever order they are. -/
theorem Session.enter_eq (h : Session file opened storage items) (hd : d.Held opened)
    {profileId : UInt32} {index built : PropertyIndex} {next : Nat} {values : List UInt32}
    (hrun : (PropertyIndex.enter d.values.collection profileId index next values).run storage =
      (.ok built, after)) :
    built = index.insertAll (d.entered index.propertyCount profileId next values) ∧
      Session file opened after items := by
  induction values generalizing index next storage with
  | nil =>
      obtain ⟨rfl, rfl⟩ := run_pure_eq_ok_iff.mp hrun
      exact ⟨rfl, h⟩
  | cons valueIndex rest ih =>
      obtain ⟨bytes, between, hbytes, hrest⟩ := run_bind_eq_ok_iff.mp hrun
      obtain ⟨value, between', hdecode, hrest⟩ := run_bind_eq_ok_iff.mp hrest
      obtain ⟨hdecoded, rfl⟩ := run_liftM_eq_ok_iff.mp hdecode
      obtain ⟨hvalue, hbetween⟩ := h.decoded ValueRecord.decode_of_prefix (hd.opened _ (by simp))
        (hd.limit _ (by simp)) hbytes hdecoded
      have hproperty : d.property? valueIndex = some value.propertyIndex.toInt := by
        rw [DataSet.property?, hvalue]
        rfl
      simp only [DataSet.entered, hproperty]
      simp only at hrest
      split at hrest
      · rename_i hentered
        rw [if_pos hentered]
        exact ih hbetween hrest
      · rename_i hskipped
        rw [if_neg hskipped]
        exact ih hbetween hrest

theorem Session.enterFrom_eq (h : Session file opened storage items) (hd : d.Held opened)
    {number count : Nat} {index built : PropertyIndex}
    (hrun : (PropertyIndex.enterFrom d.offsets.collection d.profiles.collection
      d.values.collection number count index).run storage = (.ok built, after)) :
    built = index.insertAll
      (d.entries index.propertyCount (d.profilesOf (d.listedFrom number count))) := by
  induction count generalizing number index storage with
  | zero =>
      obtain ⟨rfl, rfl⟩ := run_pure_eq_ok_iff.mp hrun
      rfl
  | succ count ih =>
      obtain ⟨offset, _, hoffset, hrest⟩ := run_bind_eq_ok_iff.mp hrun
      obtain ⟨bytes, _, hbytes, hrest⟩ := run_bind_eq_ok_iff.mp hrest
      obtain ⟨profile, _, hdecode, hrest⟩ := run_bind_eq_ok_iff.mp hrest
      obtain ⟨hdecoded, rfl⟩ := run_liftM_eq_ok_iff.mp hdecode
      obtain ⟨entered, _, hentered, hrest⟩ := run_bind_eq_ok_iff.mp hrest
      obtain ⟨hoffset, hsession⟩ := h.offsetAt hd hoffset
      obtain ⟨hprofile, hsession⟩ := hsession.decoded Profile.decode_of_prefix
        (hd.opened _ (by simp)) (hd.limit _ (by simp)) hbytes hdecoded
      obtain ⟨rfl, hsession⟩ := hsession.enter_eq hd (run_of_guard hentered)
      have hlisted : d.profilesOf (d.listedFrom number (count + 1)) =
          profile :: d.profilesOf (d.listedFrom (number + 1) count) := by
        rw [DataSet.listedFrom, List.range'_succ, List.filterMap_cons_some hoffset]
        exact List.filterMap_cons_some hprofile
      rw [ih hsession hrest, propertyCount_insertAll, hlisted, DataSet.entries_cons,
        insertAll_append]

/-- **An index is an empty one with the entries of its data set inserted.** -/
theorem Session.build_eq (h : Session file opened storage items) (hd : d.Held opened)
    {propertyCount : UInt32} {index : PropertyIndex}
    (hrun : (PropertyIndex.build d.offsets.collection d.profiles.collection
      d.values.collection propertyCount).run storage = (.ok index, after)) :
    ∃ size, index = (blank propertyCount d.offsets.collection.count size).insertAll
      (d.entries propertyCount.toNat (d.profilesOf d.listed)) := by
  obtain ⟨size, between, hbetween, hentered⟩ := h.build hd hrun
  exact ⟨size, hbetween.enterFrom_eq hd hentered⟩

/-- The counter has counted the entries, as far as it can. -/
theorem Session.filled_eq (h : Session file opened storage items) (hd : d.Held opened)
    {propertyCount : UInt32} {index : PropertyIndex}
    (hrun : (PropertyIndex.build d.offsets.collection d.profiles.collection
      d.values.collection propertyCount).run storage = (.ok index, after)) :
    index.filled =
      ((d.entries propertyCount.toNat (d.profilesOf d.listed)).map Entry.pair).length % 2 ^ 32 := by
  obtain ⟨size, rfl⟩ := h.build_eq hd hrun
  rw [filled, counter_insertAll, List.length_map]
  show (0 + UInt32.ofNat _).toNat = _
  rw [UInt32.zero_add, UInt32.toNat_ofNat']

/-- The table has the places of the entries. -/
theorem Session.found_eq (h : Session file opened storage items) (hd : d.Held opened)
    {propertyCount : UInt32} {index : PropertyIndex}
    (hrun : (PropertyIndex.build d.offsets.collection d.profiles.collection
      d.values.collection propertyCount).run storage = (.ok index, after)) :
    index.found =
      {pair | pair ∈ (d.entries propertyCount.toNat (d.profilesOf d.listed)).map Entry.pair} := by
  obtain ⟨size, rfl⟩ := h.build_eq hd hrun
  exact found_insertAll fun entry hentry => DataSet.property_lt_of_mem_entries hentry

/-- **What the counter counts.**  In an index that could be built it is the
number of entries, modulo `2 ^ 32`.  The places with a value are those of the
entries, so they are no more than that.  With fewer than `2 ^ 32` entries they
are as many as the counter says exactly if no place is entered twice.  That is
so when the profiles that are listed have different ids, and then the counter
is the number of places, modulo `2 ^ 32`. -/
theorem filled_eq_ncard_iff (hsession : Session file opened storage items) (hd : d.Held opened)
    {propertyCount : UInt32} {index : PropertyIndex}
    (hbuild : (PropertyIndex.build d.offsets.collection d.profiles.collection
      d.values.collection propertyCount).run storage = (.ok index, after)) :
    let profiles := d.profilesOf d.listed
    let pairs := (d.entries propertyCount.toNat profiles).map Entry.pair
    index.filled = pairs.length % 2 ^ 32 ∧
      index.found = {pair | pair ∈ pairs} ∧
      index.found.ncard ≤ pairs.length ∧
      (pairs.length < 2 ^ 32 →
        index.found.ncard ≤ index.filled ∧
          (index.filled = index.found.ncard ↔ pairs.Nodup)) ∧
      ((profiles.map Profile.profileId).Nodup →
        index.filled = index.found.ncard % 2 ^ 32) := by
  intro profiles pairs
  have hfilled : index.filled = pairs.length % 2 ^ 32 := hsession.filled_eq hd hbuild
  have hfound : index.found = {pair | pair ∈ pairs} := hsession.found_eq hd hbuild
  have hcard : index.found.ncard = pairs.toFinset.card := by
    rw [hfound, ← List.coe_toFinset, Set.ncard_coe_finset]
  have hle : index.found.ncard ≤ pairs.length := by
    rw [hcard]
    exact pairs.toFinset_card_le
  have hiff : pairs.length = index.found.ncard ↔ pairs.Nodup := by
    rw [hcard, eq_comm]
    exact Multiset.toFinset_card_eq_card_iff_nodup
  refine ⟨hfilled, hfound, hle, ?_, ?_⟩
  · intro hfew
    rw [hfilled, Nat.mod_eq_of_lt hfew]
    exact ⟨hle, hiff⟩
  · intro hids
    rw [hfilled, hiff.mpr (DataSet.nodup_pairs hids)]

end

/-! ## One profile, listed once and twice -/

namespace DataSet

/-- A value of property 0, a profile with id 1 that has it, and two profile
offsets that both lead to this profile; each with its header. -/
def sampleBytes : Bytes :=
  [1, 0, 0, 0] ++ List.replicate 14 0 ++
    [13, 0, 0, 0] ++ [0, 1, 0, 0, 0, 1, 0, 0, 0, 0, 0, 0, 0] ++
    [2, 0, 0, 0] ++ [1, 0, 0, 0, 0, 0, 0, 0] ++ [1, 0, 0, 0, 0, 0, 0, 0]

/-- A part of these bytes, in memory. -/
def sampleOpening (header : Header) : Opening :=
  let layout := Layout.ofHeader header
  let bytes := (sampleBytes.drop header.start.toNat).take layout.size
  ⟨sampleBytes, header, ⟨layout, .memory (Resident.ofBytes bytes layout.elementSize)⟩⟩

/-- The value, the profile, and as many of the profile offsets as a header says. -/
def sample (listed : Header) : DataSet :=
  ⟨sampleOpening listed, sampleOpening ⟨22, 13, 0⟩, sampleOpening ⟨4, 14, 1⟩⟩

/-- The collections of the sample can be opened. -/
theorem session_sample (listed : Header) {rest : ByteReader}
    (hopen : Collection.ofReader ⟨sampleBytes, 39⟩ listed =
      .ok ((sampleOpening listed).collection, rest)) :
    Session ⟨[], true⟩
      [(sample listed).offsets, (sample listed).profiles, (sample listed).values]
      (.over ⟨[], true⟩ ⟨1, [], 0, 0⟩) [] := by
  have hvalues : Collection.ofReader ⟨sampleBytes, 4⟩ ⟨4, 14, 1⟩ =
    .ok ((sampleOpening ⟨4, 14, 1⟩).collection, ⟨sampleBytes, 18⟩) := rfl
  have hprofiles : Collection.ofReader ⟨sampleBytes, 22⟩ ⟨22, 13, 0⟩ =
    .ok ((sampleOpening ⟨22, 13, 0⟩).collection, ⟨sampleBytes, 35⟩) := rfl
  have hstart : Session ⟨[], true⟩ [] (.over ⟨[], true⟩ ⟨1, [], 0, 0⟩) [] := .start rfl
  exact .ofReader (.ofReader (.ofReader hstart (by decide) hvalues) (by decide) hprofiles)
    (by decide) hopen

end DataSet

/-- If the profile is listed once, the counter is the number of places. -/
theorem filled_eq_ncard_once : ∃ (storage after : Storage) (index : PropertyIndex),
    let d := DataSet.sample ⟨39, 8, 1⟩
    (PropertyIndex.build d.offsets.collection d.profiles.collection d.values.collection 1).run
        storage = (.ok index, after) ∧
      index.filled = 1 ∧ index.found = {pair | pair ∈ [((1 : UInt32), (0 : UInt32))]} ∧
      index.filled = index.found.ncard ∧ index.filled = index.found.ncard % 2 ^ 32 := by
  let d := DataSet.sample ⟨39, 8, 1⟩
  have hsession := DataSet.session_sample ⟨39, 8, 1⟩ rfl
  have hd : d.Held [d.offsets, d.profiles, d.values] := ⟨fun _ ho => ho, by decide +kernel⟩
  have hdone : ((PropertyIndex.build d.offsets.collection d.profiles.collection
      d.values.collection 1).run (.over ⟨[], true⟩ ⟨1, [], 0, 0⟩)).1.isOk = true := by
    decide +kernel
  have hpairs : (d.entries 1 (d.profilesOf d.listed)).map Entry.pair = [(1, 0)] := by
    decide +kernel
  have hids : ((d.profilesOf d.listed).map Profile.profileId).Nodup := by decide +kernel
  generalize hbuild : (PropertyIndex.build d.offsets.collection d.profiles.collection
    d.values.collection 1).run _ = built at hdone
  obtain ⟨_ | index, after⟩ := built
  · cases hdone
  obtain ⟨hfilled, hfound, -, hfew, hdistinct⟩ := filled_eq_ncard_iff hsession hd hbuild
  have hone : UInt32.toNat 1 = 1 := rfl
  rw [hone, hpairs] at hfilled hfound hfew
  exact ⟨_, after, index, hbuild, hfilled, hfound,
    (hfew (by decide)).2.mpr (by decide), hdistinct hids⟩

/-- If it is listed twice, its place is counted twice, although the profile
offsets are in the order of the ids. -/
theorem filled_ne_ncard_twice : ∃ (storage after : Storage) (index : PropertyIndex),
    let d := DataSet.sample ⟨39, 16, 2⟩
    d.listed.Pairwise (fun offset later => offset.profileId ≤ later.profileId) ∧
      (PropertyIndex.build d.offsets.collection d.profiles.collection d.values.collection 1).run
        storage = (.ok index, after) ∧
      index.filled = 2 ∧ index.found.ncard = 1 := by
  let d := DataSet.sample ⟨39, 16, 2⟩
  have hsession := DataSet.session_sample ⟨39, 16, 2⟩ rfl
  have hd : d.Held [d.offsets, d.profiles, d.values] := ⟨fun _ ho => ho, by decide +kernel⟩
  have hordered : d.listed.Pairwise fun offset later => offset.profileId ≤ later.profileId := by
    decide +kernel
  have hdone : ((PropertyIndex.build d.offsets.collection d.profiles.collection
      d.values.collection 1).run (.over ⟨[], true⟩ ⟨1, [], 0, 0⟩)).1.isOk = true := by
    decide +kernel
  have hpairs : (d.entries 1 (d.profilesOf d.listed)).map Entry.pair = [(1, 0), (1, 0)] := by
    decide +kernel
  generalize hbuild : (PropertyIndex.build d.offsets.collection d.profiles.collection
    d.values.collection 1).run _ = built at hdone
  obtain ⟨_ | index, after⟩ := built
  · cases hdone
  have hfilled := hsession.filled_eq hd hbuild
  have hfound := hsession.found_eq hd hbuild
  have hone : UInt32.toNat 1 = 1 := rfl
  rw [hone, hpairs] at hfilled hfound
  refine ⟨_, after, index, hordered, hbuild, hfilled, ?_⟩
  rw [hfound]
  simp

end RecordStore
