import Mathlib
import RecordStore.Proofs.Collection.Lockstep
import RecordStore.Proofs.Numeric.Decimal
import RecordStore.Proofs.Writer.ReadBack
import RecordStore.Shell.Session

/-!
# Settings do not matter to what is read

How much of a store is loaded, and whether a cache is there for the rest, are
settings of a run.  A run that carries out one command asks for one record at a
time, so its reply depends on nothing but what is in the file
(`withValue_eq`, `listing_eq_listing`), and no cache is too small for it.

`settings_unseen` says so of whole runs that differ in such settings only.
-/

namespace RecordStore

/-! ## Wordings -/

/-- Texts that begin differently differ. -/
theorem append_ne {front whole : String} {count : Nat} (rest : String)
    (h : count ≤ front.toList.length)
    (hne : front.toList.take count ≠ whole.toList.take count) : front ++ rest ≠ whole := by
  rintro rfl
  rw [String.toList_append, List.take_append_of_le_length h] at hne
  exact hne rfl

/-- What the store has to say of an error is never what is said of a cache. -/
theorem StoreError.message_ne (e : StoreError) : e.message ≠ "cache is exhausted" := by
  have hfront : ∃ front rest, e.message = front ++ rest ∧ 3 ≤ front.toList.length ∧
      front.toList.take 3 ≠ "cache is exhausted".toList.take 3 := by
    cases e with
    | indexOutOfRange index => exact ⟨"index: ", _, String.append_assoc, by decide, by decide⟩
    | offsetOutOfRange offset => exact ⟨"offset: ", _, String.append_assoc, by decide, by decide⟩
    | seekFailed => exact ⟨"could not ", "seek in collection file", by decide, by decide, by decide⟩
    | readFailed =>
        exact ⟨"could not ", "read from collection file", by decide, by decide, by decide⟩
    | openFailed => exact ⟨"could not ", "open collection file", by decide, by decide, by decide⟩
    | insufficientMemory size =>
        exact ⟨"could not allocate: ", _, String.append_assoc, by decide, by decide⟩
    | unsupportedType type =>
        exact ⟨"stored value type: ", _, String.append_assoc, by decide, by decide⟩
    | unknownTypeCode code =>
        exact ⟨"stored value type code: ", _, String.append_assoc, by decide, by decide⟩
    | corrupt what => exact ⟨"corrupt data: ", _, rfl, by decide, by decide⟩
    | invalid why => exact ⟨"invalid input: ", _, rfl, by decide, by decide⟩
    | tooManyOperations capacity concurrency =>
        exact ⟨"capacity: ", _, String.append_assoc.trans String.append_assoc, by decide, by decide⟩
  obtain ⟨front, rest, hmessage, hlength, hne⟩ := hfront
  rw [hmessage]
  exact append_ne rest hlength hne

/-- A row begins with the digits of its address. -/
theorem Shell.row_ne (address : UInt32) (text : String) :
    s!"{address}: " ++ text ≠ "stopped: cache is exhausted" := by
  intro h
  have hfront := congrArg (fun line => line.toList.head?) h
  obtain ⟨c, rest, hdigits, hdigit⟩ := Decimal.exists_toDigits_cons address.toNat
  have haddress : (toString address).toList = c :: rest := by
    rw [← hdigits]
    simp [toString]
  simp only [String.toList_append, haddress, List.cons_append, List.head?_cons] at hfront
  obtain rfl : c = 's' := Option.some.inj hfront
  cases hdigit

end RecordStore

namespace RecordStore.Shell

/-- Commands that read records of the store. -/
def Command.Reads : Command → Prop
  | .compare _ _ _ | .get _ _ _ | .records _ => True
  | .help | .info | .wkt _ _ => False

/-! ## Stores -/

namespace Store

/-- What is in the contents of a store for a key. -/
def told (contents : Bytes) (key : Key) : Except StoreError Bytes := do
  let (header, _) ← Header.ofFile ⟨contents, true⟩ 0 0 false
  Source.reading ⟨header.start, none⟩ (Layout.ofHeader header) ⟨contents, true⟩ key

/-- A store that was opened with some contents, and that nobody has asked for
anything yet. -/
structure Faithful (contents : Bytes) (store : Store) : Prop where
  layout : ∀ header first, Header.ofFile ⟨contents, true⟩ 0 0 false = .ok (header, first) →
    store.collection.layout = Layout.ofHeader header
  opens : ∃ header first, Header.ofFile ⟨contents, true⟩ 0 0 false = .ok (header, first)
  tells : ∀ sizing, ∃ standing, standing store.storage ∧
    store.collection.Tells sizing (fun address => told contents ⟨address, sizing⟩) standing

variable {config : CollectionConfig} {contents : Bytes} {store store' : Store}

/-- **Opening a store**, in whatever way it is held. -/
theorem faithful_ofContents (h : Store.ofContents config contents = .ok store)
    (hlimit : contents.length < Handle.positionLimit) : Faithful contents store := by
  obtain ⟨pool, hpool, hrest⟩ := bind_eq_ok_iff.mp h
  obtain ⟨hpos, rfl⟩ := HandlePool.create_eq_ok hpool
  obtain ⟨⟨header, first⟩, hheader, hrest⟩ := bind_eq_ok_iff.mp hrest
  obtain ⟨⟨⟨c, position⟩, start⟩, hopen, hrest⟩ := bind_eq_ok_iff.mp hrest
  obtain rfl := Except.ok.inj hrest
  have hheader : Header.ofFile ⟨contents, true⟩ 0 0 false = .ok (header, first) := hheader
  obtain ⟨-, -, -, hfits⟩ := ofReader_eq_ok (ofReader_of_ofFile hheader)
  have hready : (Storage.over ⟨contents, true⟩
      ⟨max config.concurrency.toNat 1, [], 0, 0⟩).Ready := .inr ⟨hpos, rfl⟩
  refine ⟨?_, ⟨header, first, hheader⟩, ?_⟩
  · intro header' first' hheader'
    obtain ⟨rfl, -⟩ := Prod.mk.inj (Except.ok.inj (hheader.symm.trans hheader'))
    obtain ⟨source, -, hopened, -⟩ := ofFile_eq_ok hopen
    exact hopened.layout
  · intro sizing
    refine ⟨c.Asked start sizing, Collection.asked_start, ?_⟩
    have htold : ∀ key, told contents key =
        Source.reading ⟨header.start, none⟩ (Layout.ofHeader header) ⟨contents, true⟩ key := by
      intro key
      unfold told
      rw [hheader]
      rfl
    simp only [htold]
    exact Collection.tells_ofFile hready hlimit hfits hopen sizing

/-- Stores that were opened with the same contents are laid out alike. -/
theorem Faithful.layout_eq (h : Faithful contents store) (h' : Faithful contents store') :
    store'.collection.layout = store.collection.layout := by
  obtain ⟨header, first, hheader⟩ := h.opens
  rw [h.layout header first hheader, h'.layout header first hheader]

/-! ## Replies -/

/-- **A value is shown as what is in the file for it**, and is never missed for
want of a node. -/
theorem withValue_eq (h : Faithful contents store) (offset : UInt32) (type : ValueType)
    (line : StoredValue → Except StoreError String) :
    (store.withValue offset type line).1 = .ofLine ((do
      let sizing ← type.sizing
      let bytes ← told contents ⟨offset, sizing⟩
      StoredValue.decode bytes type >>= line).mapError .ofStore) := by
  unfold withValue
  cases hsizing : type.sizing with
  | error e =>
      have hvalue : store.collection.value offset type store.storage =
          (.error e, store.storage) := by
        unfold Collection.value
        rw [hsizing]
        rfl
      rw [hvalue]
      rfl
  | ok sizing =>
      obtain ⟨standing, hstanding, htells⟩ := h.tells sizing
      have hgives := htells.gives store.storage hstanding offset
      have hvalue : store.collection.value offset type store.storage =
          (store.collection.get ⟨offset, sizing⟩).run store.storage :=
        run_value hsizing store.storage
      rw [hvalue]
      rcases hget : (store.collection.get ⟨offset, sizing⟩).run store.storage with ⟨result, after⟩
      rw [hget] at hgives
      cases htold : told contents ⟨offset, sizing⟩ with
      | error e =>
          rw [htold] at hgives
          obtain rfl : result = .error e := eq_error_of_bytesGiven hgives
          simp only [htold, bind, Except.bind]
          rfl
      | ok bytes =>
          rw [htold] at hgives
          obtain ⟨item, hitem, rfl⟩ := eq_ok_of_bytesGiven hgives
          obtain rfl : result = .ok (some item) := hitem
          simp only [htold, bind, Except.bind]

/-- **Records are listed alike**, up to the first that fails, and none is missed
for want of a node. -/
theorem listing_eq_listing (h : Faithful contents store) (h' : Faithful contents store')
    (type : ValueType) : (store.listing type).1 = (store'.listing type).1 ∧
      (∃ failure? : Option StoreError,
        (store.listing type).1.fault? = failure?.map Fault.ofStore) ∧
      "stopped: cache is exhausted" ∉ (store.listing type).1.lines := by
  unfold listing
  cases type.sizing with
  | error e => exact ⟨rfl, ⟨some e, rfl⟩, List.not_mem_nil⟩
  | ok sizing =>
      obtain ⟨standing, hstanding, htells⟩ := h.tells sizing
      obtain ⟨standing', hstanding', htells'⟩ := h'.tells sizing
      have habreast : (store.collection.walk sizing).Abreast (store'.collection.walk sizing) :=
        ⟨h.layout_eq h', rfl, rfl, rfl, rfl, rfl⟩
      have hlimit : (store'.collection.walk sizing).limit =
          (store.collection.walk sizing).limit := by
        unfold Walk.limit Collection.count Collection.size
        rw [habreast.layout]
      simp only [Walk.takeAll, hlimit]
      generalize hrow : (fun (address : UInt32) (bytes : Bytes) => do
        let text ← (← StoredValue.decode bytes type).toText FixedPoint.maxPlaces
        return s!"{address}: " ++ text) = row
      have hrows := Walk.rows_take row false ((store.collection.walk sizing).limit + 1)
        (store.collection.walk sizing) store.storage
      obtain ⟨hsame, hgoing⟩ := Walk.take_eq_take row
        ((store.collection.walk sizing).limit + 1) habreast htells htells' hstanding hstanding'
      simp only [← hsame, hgoing, Bool.false_eq_true, if_false, List.append_nil]
      refine ⟨trivial, ⟨_, rfl⟩, ?_⟩
      intro hline
      obtain ⟨address, bytes, hmade⟩ := hrows _ hline
      subst hrow
      obtain ⟨value, -, hmade⟩ := bind_eq_ok_iff.mp hmade
      obtain ⟨text, -, hmade⟩ := bind_eq_ok_iff.mp hmade
      exact row_ne address text (Except.ok.inj hmade)

end Store

/-- What a reply may not say if no cache was too small. -/
structure Reply.Served (command : Command) (reply : Reply) : Prop where
  fault : reply.fault? ≠ some (.plain "cache is exhausted")
  lines : ∀ type, command = .records type → "stopped: cache is exhausted" ∉ reply.lines

theorem ofStore_ne (e : StoreError) : Fault.ofStore e ≠ .plain "cache is exhausted" := by
  intro h
  exact e.message_ne (congrArg Fault.message h)

/-- The reply that is a line, or an error of the store. -/
theorem served_ofLine {command : Command} (hlisted : ∀ type, command ≠ .records type)
    (line : Except StoreError String) :
    (Reply.ofLine (line.mapError Fault.ofStore)).Served command where
  fault := by
    cases line with
    | error e => exact fun h => ofStore_ne e (Option.some.inj h)
    | ok line => exact nofun
  lines := fun type hcommand => absurd hcommand (hlisted type)

/-- **What is read does not depend on how a store is held.** -/
theorem run_eq_run {command : Command} (hreads : command.Reads) {contents : Bytes}
    {store store' : Store} (h : store.Faithful contents) (h' : store'.Faithful contents) :
    (command.run store).1 = (command.run store').1 ∧ (command.run store).1.Served command := by
  cases command with
  | compare offset type target =>
      simp only [Command.run, Store.withValue_eq h, Store.withValue_eq h']
      refine ⟨trivial, served_ofLine ?_ _⟩
      intro listed hcommand
      cases hcommand
  | get offset type places? =>
      simp only [Command.run, Store.withValue_eq h, Store.withValue_eq h']
      refine ⟨trivial, served_ofLine ?_ _⟩
      intro listed hcommand
      cases hcommand
  | records type =>
      obtain ⟨hsame, ⟨failure?, hfault⟩, hlines⟩ := Store.listing_eq_listing h h' type
      refine ⟨hsame, ?_, ?_⟩
      · show (store.listing type).1.fault? ≠ _
        rw [hfault]
        cases failure? with
        | none => exact nofun
        | some e => exact fun h => ofStore_ne e (Option.some.inj h)
      · intro _ _
        exact hlines
  | help => exact hreads.elim
  | info => exact hreads.elim
  | wkt hex places? => exact hreads.elim

/-! ## Runs -/

namespace Run

/-- The files as a run finds them when it opens the store: with the store that it
was asked to create, and after what was printed about that. -/
def prepared (asked : Arguments) (directory : Directory) :
    List String × Except Fault Directory :=
  match asked.create? with
  | none => ([], .ok directory)
  | some source => Creation.run directory asked.store source

variable {arguments : List String} {asked : Arguments} {directory after : Directory}
  {printed : List String} {contents : Bytes} {command : Command} {store : Store}

/-- A run whose files are there goes on to open the store. -/
theorem begin_of_prepared (hasked : Arguments.parse? arguments = some asked)
    (hprepared : prepared asked directory = (printed, .ok after)) :
    Run.begin arguments directory = proceed asked printed after := by
  unfold prepared at hprepared
  unfold Run.begin
  rw [hasked]
  simp only
  cases hcreate : asked.create? with
  | none =>
      rw [hcreate] at hprepared
      obtain ⟨rfl, hafter⟩ := Prod.mk.inj hprepared
      obtain rfl := Except.ok.inj hafter
      rfl
  | some source =>
      rw [hcreate] at hprepared
      simp only at hprepared ⊢
      rw [hprepared]

/-- The store is opened with what its path is read as. -/
theorem openStore_of_read (hread : after.read asked.store = .ok contents) :
    openStore asked after = (Store.ofContents asked.config contents).mapError .ofStore := by
  obtain ⟨entry, hfind, -⟩ := bind_eq_ok_iff.mp hread
  unfold openStore
  rw [hfind, hread]

/-- A run of one command, from the arguments to the reply. -/
theorem begin_of_command (hasked : Arguments.parse? arguments = some asked)
    (hprepared : prepared asked directory = (printed, .ok after))
    (hread : after.read asked.store = .ok contents)
    (hopen : Store.ofContents asked.config contents = .ok store)
    (hcommand : asked.command? = some command) : Run.begin arguments directory =
      .finished (finish (printed ++ (command.run store).1.lines) (command.run store).1.fault?
        after) := by
  rw [begin_of_prepared hasked hprepared, proceed, openStore_of_read hread, hopen, hcommand]
  rfl

/-- **Settings are unseen.**  Two runs are asked for the same, to read from a
store, but to hold it in different ways.  If the store can be opened in either
way, both come to the same: they print the same and fail alike.  Neither reports
that a cache is exhausted. -/
theorem settings_unseen {arguments' : List String} {asked' : Arguments}
    (hasked : Arguments.parse? arguments = some asked)
    (hasked' : Arguments.parse? arguments' = some asked')
    (hsame : asked' = { asked with config := asked'.config })
    (hcommand : asked.command? = some command) (hreads : command.Reads)
    (hprepared : prepared asked directory = (printed, .ok after))
    (hread : after.read asked.store = .ok contents)
    (hlimit : contents.length < Handle.positionLimit)
    (hopens : ∃ store, Store.ofContents asked.config contents = .ok store)
    (hopens' : ∃ store, Store.ofContents asked'.config contents = .ok store) :
    ∃ reply : Reply,
      Run.begin arguments directory =
        .finished (finish (printed ++ reply.lines) reply.fault? after) ∧
      Run.begin arguments' directory = Run.begin arguments directory ∧
      reply.Served command := by
  obtain ⟨store, hopen⟩ := hopens
  obtain ⟨store', hopen'⟩ := hopens'
  have hprepared' : prepared asked' directory = (printed, .ok after) := by
    rw [hsame]
    exact hprepared
  have hread' : after.read asked'.store = .ok contents := by
    rw [hsame]
    exact hread
  have hcommand' : asked'.command? = some command := by
    rw [hsame]
    exact hcommand
  obtain ⟨hreply, hserved⟩ := run_eq_run hreads (Store.faithful_ofContents hopen hlimit)
    (Store.faithful_ofContents hopen' hlimit)
  refine ⟨(command.run store).1, begin_of_command hasked hprepared hread hopen hcommand, ?_,
    hserved⟩
  rw [begin_of_command hasked hprepared hread hopen hcommand,
    begin_of_command hasked' hprepared' hread' hopen' hcommand', hreply]

/-- Two texts are listed from a store that is streamed, and from one of which the
first text is in memory, and the second comes through a cache of one node. -/
theorem settings_unseen_two : ∃ directory,
    Run.begin ["s", "records", "String"] directory =
      .finished ⟨0, ["0: ab", "5: c"], "", directory⟩ ∧
    Run.begin ["--loaded", "7", "--capacity", "1", "s", "records", "String"] directory =
      .finished ⟨0, ["0: ab", "5: c"], "", directory⟩ := by
  have hasked : Arguments.parse? ["s", "records", "String"] =
      some ⟨"s", none, ⟨0, 0, 1⟩, some (.records .string)⟩ := by decide +kernel
  have hasked' : Arguments.parse? ["--loaded", "7", "--capacity", "1", "s", "records", "String"] =
      some ⟨"s", none, ⟨7, 1, 1⟩, some (.records .string)⟩ := by decide +kernel
  have hread : (Directory.holding [("s", [9, 0, 0, 0, 3, 0, 97, 98, 0, 2, 0, 99, 0])]).read "s" =
      .ok [9, 0, 0, 0, 3, 0, 97, 98, 0, 2, 0, 99, 0] := by cbv
  have hlisted : Run.begin ["s", "records", "String"]
      (.holding [("s", [9, 0, 0, 0, 3, 0, 97, 98, 0, 2, 0, 99, 0])]) = .finished ⟨0,
        ["0: ab", "5: c"], "", .holding [("s", [9, 0, 0, 0, 3, 0, 97, 98, 0, 2, 0, 99, 0])]⟩ := by
    cbv
  obtain ⟨reply, -, hbegin, -⟩ := settings_unseen hasked hasked' rfl rfl trivial rfl hread
    (by decide) ⟨_, rfl⟩ ⟨_, rfl⟩
  exact ⟨_, hlisted, hbegin.trans hlisted⟩

end Run

end RecordStore.Shell
