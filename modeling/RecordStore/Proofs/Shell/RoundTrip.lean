import Mathlib
import RecordStore.Proofs.Shell.Places
import RecordStore.Proofs.Shell.Retrieving

/-!
# A store that was created shows its source

A run that creates a store either accepts every line of the source, or leaves
everything as it was.  In the first case the offset of each record is printed,
and any run that gets the record at this offset shows what its line said,
however it holds the store (`Shows`).

`creation_shown` says so of whole runs, from the arguments to what is printed.
Two things stand in the way of a get: a cache without room for its shards, and a
path that forgets what is written to it (`get_unshown`).
-/

namespace RecordStore.Shell

open Creation (Row isRecord said? shown textTypes linesOf Refused Accepts)

/-! ## Stores that show their source -/

/-- What a run that has one command comes to, once the store is there: it says
`reply` after what it printed before, in whatever way the store is held. -/
def Run.Replies (after : Directory) (path : String) (command : Command) (reply : Reply) : Prop :=
  ∀ {arguments : List String} {asked : Arguments} {directory : Directory} {printed : List String}
    {contents : Bytes}, Arguments.parse? arguments = some asked → asked.store = path →
    asked.command? = some command → Run.prepared asked directory = (printed, .ok after) →
      after.read path = .ok contents →
        (∃ store, Store.ofContents asked.config contents = .ok store) →
          Run.begin arguments directory =
            .finished (Run.finish (printed ++ reply.lines) reply.fault? after)

/-- A store at a path that shows what the lines of its source said.

* `said`: there is a row for each record, in order, with the type and the value
  of its line.
* `offsets`: they are printed with their offsets.
* `skips`: lines that are blank or begin with `#` add nothing to what is printed
  or stored.
* `opens`: the store can be opened in every way for which there can be a cache.
* `gets`: a get of a record, at the offset that was printed, shows what the line
  said, and only a geometry can fail to be shown.
* `lists`: if all are texts, listing them as texts shows all of them, in order. -/
structure Shows (texts : List (List Char)) (printed : List String) (after : Directory)
    (path : String) (rows : List Row) : Prop where
  said : (texts.filter isRecord).map said? =
    rows.map fun row => some (row.type, row.value)
  offsets : printed = rows.map Row.line
  skips : ∀ others number, others.filter isRecord = texts.filter isRecord →
    ∃ w contents, Creation.lines .empty number others = (printed, .ok w) ∧
      w.finishWithLength = .ok contents ∧ after.read path = .ok contents
  opens : ∀ config : CollectionConfig, (config.hasCache → ∃ cache,
      Cache.create config.capacity config.concurrency Collection.spread = .ok cache) →
    ∃ contents store, after.read path = .ok contents ∧
      Store.ofContents config contents = .ok store
  gets : ∀ row ∈ rows, ∀ places? : Option Nat,
    Run.Replies after path (.get row.offset row.type places?)
        (.ofLine (shown row.type row.value (places?.getD FixedPoint.maxPlaces))) ∧
      (row.type ≠ .wkb → ∃ line, shown row.type row.value
        (places?.getD FixedPoint.maxPlaces) = .ok line)
  lists : (∀ row ∈ rows, row.type ∈ textTypes) → ∀ type ∈ textTypes,
    Run.Replies after path (.records type) ⟨rows.map Row.listed, none⟩

section

variable {directory after : Directory} {path source : String} {printed : List String}
  {text : List Char} {w : RecordWriter} {contents : Bytes} {rows : List Row}

theorem finishWithLength_eq_ok_iff : w.finishWithLength = .ok contents ↔
    w.data.length < 4294967296 ∧ Bytes.littleEndian 4 w.data.length ++ w.data = contents := by
  unfold RecordWriter.finishWithLength RecordWriter.length
  split <;> simp_all

/-- A creation, from the source to the store. -/
theorem creation_eq_ok_iff : Creation.run directory path source = (printed, .ok after) ↔
    ∃ text w contents, Creation.textOf directory source = .ok text ∧
      Creation.lines .empty 1 (linesOf text) = (printed, .ok w) ∧
      w.finishWithLength = .ok contents ∧ directory.write path contents = .ok after := by
  unfold Creation.run
  constructor
  · intro h
    cases htext : Creation.textOf directory source with
    | error fault =>
        rw [htext] at h
        cases (Prod.mk.inj h).2
    | ok text =>
        rw [htext] at h
        rcases hlines : Creation.lines .empty 1 (linesOf text) with ⟨lines, result⟩
        simp only [Except.mapError, hlines] at h
        obtain ⟨rfl, hwritten⟩ := Prod.mk.inj h
        obtain ⟨w, rfl, hrest⟩ := bind_eq_ok_iff.mp hwritten
        obtain ⟨contents, hfinish, hwrite⟩ := bind_eq_ok_iff.mp hrest
        exact ⟨text, w, contents, rfl, hlines, mapError_eq_ok_iff.mp hfinish,
          mapError_eq_ok_iff.mp hwrite⟩
  · rintro ⟨text, w, contents, htext, hlines, hfinish, hwrite⟩
    rw [htext]
    simp only [Except.mapError, hlines, hfinish, bind, Except.bind, hwrite]

/-- A source with a line that fails changes nothing. -/
theorem creation_eq_error {fault : Fault} (htext : Creation.textOf directory source = .ok text)
    (hlines : Creation.lines .empty 1 (linesOf text) = (printed, .error fault)) :
    Creation.run directory path source = (printed, .error fault) := by
  unfold Creation.run
  rw [htext]
  simp only [Except.mapError, hlines]
  rfl

/-- A run that cannot open its store says why. -/
theorem Run.begin_of_refused {arguments : List String} {asked : Arguments} {e : StoreError}
    (hasked : Arguments.parse? arguments = some asked)
    (hprepared : Run.prepared asked directory = (printed, .ok after))
    (hread : after.read asked.store = .ok contents)
    (hopen : Store.ofContents asked.config contents = .error e) : Run.begin arguments directory =
      .finished (finish printed (some (.ofStore e)) after) := by
  rw [begin_of_prepared hasked hprepared, proceed, openStore_of_read hread, hopen]
  rfl

/-- What was written shows what was said. -/
theorem shows_of_accepts {texts : List (List Char)}
    (haccepts : Accepts .empty texts rows w) (hfinish : w.finishWithLength = .ok contents)
    (hread : after.read path = .ok contents) :
    Shows texts (rows.map Row.line) after path rows := by
  obtain ⟨hlength, rfl⟩ := finishWithLength_eq_ok_iff.mp hfinish
  have hlaid : Creation.Laid w.data 0 rows := haccepts.laid
  have hlimit : (Bytes.littleEndian 4 w.data.length ++ w.data).length < Handle.positionLimit := by
    rw [List.length_append, Bytes.length_littleEndian]
    unfold Handle.positionLimit
    omega
  -- A run of one command replies as the command does on any store that holds the records.
  have hreplies : ∀ {command : Command} {reply : Reply},
      (∀ store : Store, store.Faithful (Bytes.littleEndian 4 w.data.length ++ w.data) →
        (command.run store).1 = reply) → Run.Replies after path command reply := by
    intro command reply hreply arguments asked directory printed contents hasked hstore hcommand
      hprepared hcontents hopen
    obtain rfl := Except.ok.inj (hread.symm.trans hcontents)
    obtain ⟨store, hopen⟩ := hopen
    rw [← hstore] at hcontents
    rw [Run.begin_of_command hasked hprepared hcontents hopen hcommand,
      hreply store (Store.faithful_ofContents hopen hlimit)]
  refine ⟨haccepts.said, rfl, ?skips, ?opens, ?gets, ?lists⟩
  case skips =>
    intro others number hothers
    have haccepted : Accepts .empty others rows w := by
      rw [← Creation.accepts_filter, hothers, Creation.accepts_filter]
      exact haccepts
    exact ⟨w, _, Creation.lines_eq_ok_iff.mpr ⟨rows, haccepted, rfl⟩, hfinish, hread⟩
  case opens =>
    intro config hcreate
    obtain ⟨store, hopen⟩ := Creation.exists_ofContents hlength hcreate
    exact ⟨_, store, hread, hopen⟩
  case gets =>
    intro row hrow places?
    refine ⟨hreplies fun store hfaithful => hlaid.get hlength hfaithful hrow places?, ?_⟩
    intro htype
    obtain ⟨draft, -, hdraft, -⟩ := hlaid.told hlength hrow
    exact Creation.exists_shown hdraft htype _
  case lists =>
    intro htexts type htype
    exact hreplies fun store hfaithful => hlaid.records hlength hfaithful htexts htype

/-- **A store that was created shows its source.**  If a store is created from a
source, at a path that keeps what is written to it, the store shows what the lines
said.  If a line of the source is refused or fails, nothing is created; and a run
in which nothing is created ends with a fault and leaves all files as they were,
among them a store that was there before. -/
theorem creation_shown (directory : Directory) (path source : String) :
    (∀ printed after, Creation.run directory path source = (printed, .ok after) →
      directory.find path ≠ .ok .sink →
        ∃ text rows, Creation.textOf directory source = .ok text ∧
          Shows (linesOf text) printed after path rows) ∧
    (∀ text, Creation.textOf directory source = .ok text →
      ((∃ line ∈ linesOf text, Refused line) ∨
        ∃ fault, (Creation.lines .empty 1 (linesOf text)).2 = .error fault) →
          ∃ printed fault, Creation.run directory path source = (printed, .error fault)) ∧
    ∀ printed fault, Creation.run directory path source = (printed, .error fault) →
      ∀ arguments asked, Arguments.parse? arguments = some asked →
        asked.create? = some source → asked.store = path →
          Run.begin arguments directory =
            .finished (Run.finish printed (some fault) directory) := by
  refine ⟨?shown, ?refused, ?failed⟩
  case shown =>
    intro printed after hrun hkept
    obtain ⟨text, w, contents, htext, hlines, hfinish, hwrite⟩ := creation_eq_ok_iff.mp hrun
    obtain ⟨rows, haccepts, rfl⟩ := Creation.lines_eq_ok_iff.mp hlines
    exact ⟨text, rows, htext,
      shows_of_accepts haccepts hfinish (Directory.read_of_write hwrite hkept)⟩
  case refused =>
    intro text htext hrefused
    rcases hlines : Creation.lines .empty 1 (linesOf text) with ⟨printed, fault | w⟩
    · exact ⟨printed, fault, creation_eq_error htext hlines⟩
    · exfalso
      obtain ⟨rows, haccepts, -⟩ := Creation.lines_eq_ok_iff.mp hlines
      rcases hrefused with ⟨line, hline, hrefused⟩ | ⟨fault, hfault⟩
      · exact haccepts.not_refused line hline hrefused
      · rw [hlines] at hfault
        cases hfault
  case failed =>
    rintro printed fault hrun arguments asked hasked hcreate rfl
    unfold Run.begin
    rw [hasked]
    simp only [hcreate, hrun]

end

/-- Two records among lines without one are shown, one by a store that is streamed
and one by a store of which three bytes are in memory; and a line that is refused
leaves the store that was there. -/
theorem creation_shown_two :
    (∃ after, Creation.run (.holding [("t", Utf8.encode "string  a b\n# c\n\ninteger +07\n")])
        "s" "t" = (["0: string", "6: integer"], .ok after) ∧
      Run.begin ["s", "get", "0", "string"] after = .finished ⟨0, ["a b"], "", after⟩ ∧
      Run.begin ["-l", "3", "--capacity", "1", "s", "get", "6", "integer"] after =
        .finished ⟨0, ["7"], "", after⟩) ∧
    ∃ printed fault, Run.begin ["--create", "t", "s", "info"]
        (.holding [("s", [0, 0, 0, 0]), ("t", Utf8.encode "byte 1\nbyte 256\n")]) =
      .finished (Run.finish printed (some fault)
        (.holding [("s", [0, 0, 0, 0]), ("t", Utf8.encode "byte 1\nbyte 256\n")])) := by
  constructor
  · have hrun : Creation.run
        (.holding [("t", Utf8.encode "string  a b\n# c\n\ninteger +07\n")]) "s" "t" =
          (["0: string", "6: integer"], .ok (.holding
            [("s", [10, 0, 0, 0, 4, 0, 97, 32, 98, 0, 7, 0, 0, 0]),
              ("t", Utf8.encode "string  a b\n# c\n\ninteger +07\n")])) := by cbv
    have htext : Creation.textOf
        (.holding [("t", Utf8.encode "string  a b\n# c\n\ninteger +07\n")]) "t" =
          .ok "string  a b\n# c\n\ninteger +07\n".toList := by cbv
    have hfind : (Directory.holding
        [("t", Utf8.encode "string  a b\n# c\n\ninteger +07\n")]).find "s" =
          .error .missing := by cbv
    have hread : (Directory.holding [("s", [10, 0, 0, 0, 4, 0, 97, 32, 98, 0, 7, 0, 0, 0]),
        ("t", Utf8.encode "string  a b\n# c\n\ninteger +07\n")]).read "s" =
          .ok [10, 0, 0, 0, 4, 0, 97, 32, 98, 0, 7, 0, 0, 0] := by cbv
    have hsaid : ((linesOf "string  a b\n# c\n\ninteger +07\n".toList).filter isRecord).map said? =
        [some (.string, "a b".toList), some (.integer, "+07".toList)] := by cbv
    have hstreamed : Arguments.parse? ["s", "get", "0", "string"] =
        some ⟨"s", none, ⟨0, 0, 1⟩, some (.get 0 .string none)⟩ := by decide +kernel
    have hloaded : Arguments.parse? ["-l", "3", "--capacity", "1", "s", "get", "6", "integer"] =
        some ⟨"s", none, ⟨3, 1, 1⟩, some (.get 6 .integer none)⟩ := by decide +kernel
    obtain ⟨text, rows, htext', hshows⟩ := (creation_shown _ "s" "t").1 _ _ hrun
      (by rw [hfind]; intro hsink; cases hsink)
    obtain rfl := Except.ok.inj (htext.symm.trans htext')
    -- The rows hold what the lines say, and their offsets are those that were printed.
    obtain ⟨⟨first, type, value⟩, rest, rfl, hfirst, hrest⟩ :=
      List.map_eq_cons_iff.mp (hshows.said.symm.trans hsaid)
    obtain ⟨rfl, rfl⟩ := Prod.mk.inj (Option.some.inj hfirst)
    obtain ⟨⟨second, type, value⟩, rest, rfl, hsecond, hlast⟩ := List.map_eq_cons_iff.mp hrest
    obtain ⟨rfl, rfl⟩ := Prod.mk.inj (Option.some.inj hsecond)
    obtain rfl := List.map_eq_nil_iff.mp hlast
    obtain ⟨hzero, hline⟩ := List.cons.inj hshows.offsets
    obtain ⟨hsix, -⟩ := List.cons.inj hline
    obtain rfl : 0 = first :=
      Row.offset_eq (show Row.line ⟨0, .string, "a b".toList⟩ = _ from hzero) rfl
    obtain rfl : 6 = second :=
      Row.offset_eq (show Row.line ⟨6, .integer, "+07".toList⟩ = _ from hsix) rfl
    have hstring : Run.Replies _ "s" (.get 0 .string none) ⟨["a b"], none⟩ :=
      (hshows.gets ⟨0, .string, _⟩ List.mem_cons_self none).1
    have hinteger : Run.Replies _ "s" (.get 6 .integer none) ⟨["7"], none⟩ :=
      (hshows.gets ⟨6, .integer, _⟩ (List.mem_cons_of_mem _ List.mem_cons_self) none).1
    exact ⟨_, hrun, hstring hstreamed rfl rfl rfl hread ⟨_, rfl⟩,
      hinteger hloaded rfl rfl rfl hread ⟨_, rfl⟩⟩
  · have htext : Creation.textOf
        (.holding [("s", [0, 0, 0, 0]), ("t", Utf8.encode "byte 1\nbyte 256\n")]) "t" =
          .ok "byte 1\nbyte 256\n".toList := by cbv
    have hrefused : Refused "byte 256".toList := by
      refine ⟨by decide +kernel, ?_⟩
      intro type value draft hsaid hdraft
      have hbyte : said? "byte 256".toList = some (.byte, "256".toList) := by decide +kernel
      obtain ⟨rfl, rfl⟩ := Prod.mk.inj (Option.some.inj (hbyte.symm.trans hsaid))
      cases hdraft
    have hasked : Arguments.parse? ["--create", "t", "s", "info"] =
        some ⟨"s", some "t", ⟨0, 0, 1⟩, some .info⟩ := by decide +kernel
    obtain ⟨-, hnothing, hfails⟩ := creation_shown
      (.holding [("s", [0, 0, 0, 0]), ("t", Utf8.encode "byte 1\nbyte 256\n")]) "s" "t"
    obtain ⟨printed, fault, hfailed⟩ := hnothing _ htext (.inl ⟨_, by decide +kernel, hrefused⟩)
    exact ⟨printed, fault, hfails _ _ hfailed _ _ hasked rfl rfl⟩

/-- **What is not shown.**  A cache has to have room for its shards: with one that
has not, the store is not opened, and nothing is got.  What is written to a path
that forgets it is not got either. -/
theorem get_unshown :
    (∃ after, Creation.run (.holding [("t", Utf8.encode "string ab\n")]) "s" "t" =
        (["0: string"], .ok after) ∧
      Run.begin ["--capacity", "1", "--concurrency", "2", "s", "get", "0", "string"] after =
        .finished ⟨1, [], "Error: capacity: 1 is too small for concurrency: 2\n", after⟩) ∧
    ∃ after, Creation.run (.holding [("t", Utf8.encode "string ab\n")]) "/dev/null" "t" =
        (["0: string"], .ok after) ∧
      Run.begin ["/dev/null", "get", "0", "string"] after =
        .finished ⟨1, [], "Error: could not read from collection file\n\n" ++
          "Caused by:\n    failed to fill whole buffer\n", after⟩ := by
  have htext : Creation.textOf (.holding [("t", Utf8.encode "string ab\n")]) "t" =
      .ok "string ab\n".toList := by cbv
  have hlines : Creation.lines .empty 1 (linesOf "string ab\n".toList) =
      (["0: string"], .ok ⟨[3, 0, 97, 98, 0], 1⟩) := by cbv
  constructor
  · have hwrite : (Directory.holding [("t", Utf8.encode "string ab\n")]).write "s"
        [5, 0, 0, 0, 3, 0, 97, 98, 0] = .ok (.holding
          [("s", [5, 0, 0, 0, 3, 0, 97, 98, 0]), ("t", Utf8.encode "string ab\n")]) := by cbv
    have hread : (Directory.holding [("s", [5, 0, 0, 0, 3, 0, 97, 98, 0]),
        ("t", Utf8.encode "string ab\n")]).read "s" = .ok [5, 0, 0, 0, 3, 0, 97, 98, 0] := by cbv
    have hasked : Arguments.parse?
        ["--capacity", "1", "--concurrency", "2", "s", "get", "0", "string"] =
          some ⟨"s", none, ⟨0, 1, 2⟩, some (.get 0 .string none)⟩ := by decide +kernel
    exact ⟨_, creation_eq_ok_iff.mpr ⟨_, _, _, htext, hlines, rfl, hwrite⟩,
      Run.begin_of_refused hasked rfl hread rfl⟩
  · have hnames : "/dev/null".splitOn "/" = ["", "dev", "null"] := by
      rw [splitOn_slash]
      decide +kernel
    have hwrite : (Directory.holding [("t", Utf8.encode "string ab\n")]).write "/dev/null"
        [5, 0, 0, 0, 3, 0, 97, 98, 0] = .ok (.holding [("t", Utf8.encode "string ab\n")]) := by
      unfold Directory.write
      rw [hnames]
      decide +kernel
    have hread : (Directory.holding [("t", Utf8.encode "string ab\n")]).read "/dev/null" =
        .ok [] := by
      unfold Directory.read Directory.find
      rw [hnames]
      decide +kernel
    have hasked : Arguments.parse? ["/dev/null", "get", "0", "string"] =
        some ⟨"/dev/null", none, ⟨0, 0, 1⟩, some (.get 0 .string none)⟩ := by decide +kernel
    exact ⟨_, creation_eq_ok_iff.mpr ⟨_, _, _, htext, hlines, rfl, hwrite⟩,
      Run.begin_of_refused hasked rfl hread rfl⟩

end RecordStore.Shell
