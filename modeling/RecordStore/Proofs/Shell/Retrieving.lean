import Mathlib
import RecordStore.Proofs.Collection.Listing
import RecordStore.Proofs.Shell.Entering
import RecordStore.Proofs.Shell.Settings
import RecordStore.Proofs.Value.Comparing

/-!
# What was accepted is found again

Records that were accepted lie one after another (`Laid`), so each is found at
the offset that was printed for it, and shown as what its line said
(`Laid.get`, `shown`).  If all of them are texts, a listing goes from one to the
next (`Laid.records`).
-/

namespace RecordStore

/-! ## Numbers -/

namespace Literal

/-- A digit is read, and leads to a number that is still in the range. -/
theorem digitsFrom_cons_eq_ok {range : Range} {negative : Bool} {value n : Int} {c : Char}
    {text : List Char} (h : digitsFrom range negative value (c :: text) = .ok n) :
    c.isDigit = true ∧ ∃ next, range.contains next ∧
      digitsFrom range negative next text = .ok n := by
  unfold digitsFrom digit? at h
  split at h
  · cases h
  · next d hdigit =>
      have hc : c.isDigit = true := by
        by_contra hc
        rw [if_neg hc] at hdigit
        cases hdigit
      simp only at h
      generalize (if negative = true then _ else _) = next at h
      split at h
      · cases h
      · next hlow =>
          split at h
          · cases h
          · next hhigh =>
              refine ⟨hc, next, ?_, h⟩
              rw [Range.contains, Bool.and_eq_true, decide_eq_true_iff, decide_eq_true_iff]
              exact ⟨Int.not_lt.mp hlow, Int.not_lt.mp hhigh⟩

/-- An integer is spelt as digits, with a sign before them or without one. -/
theorem integer_eq_ok {range : Range} {text : List Char} {n : Int}
    (h : integer range text = .ok n) : text ≠ [] ∧ ∃ front digits negative,
      text = front ++ digits ∧ (∀ c ∈ front, c = '+' ∨ c = '-') ∧
        digitsFrom range negative 0 digits = .ok n := by
  unfold integer at h
  split at h
  · cases h
  · cases h
  · cases h
  · exact ⟨List.cons_ne_nil _ _, ['+'], _, _, rfl, by simp, h⟩
  · split at h
    · exact ⟨List.cons_ne_nil _ _, ['-'], _, _, rfl, by simp, h⟩
    · cases h
  · next hnonempty _ _ _ _ => exact ⟨hnonempty, [], _, _, rfl, nofun, h⟩

theorem contains_digitsFrom {range : Range} {negative : Bool} {value n : Int} {text : List Char}
    (hvalue : range.contains value) (h : digitsFrom range negative value text = .ok n) :
    range.contains n := by
  induction text generalizing value with
  | nil =>
      obtain rfl := Except.ok.inj h
      exact hvalue
  | cons c text ih =>
      obtain ⟨-, next, hnext, hrest⟩ := digitsFrom_cons_eq_ok h
      exact ih hnext hrest

/-- A text denotes a number of the range. -/
theorem contains_integer {range : Range} {text : List Char} {n : Int} (hzero : range.contains 0)
    (h : integer range text = .ok n) : range.contains n := by
  obtain ⟨-, front, digits, negative, -, -, hdigits⟩ := integer_eq_ok h
  exact contains_digitsFrom hzero hdigits

/-- Numbers of a range keep their value in as many bits. -/
theorem toInt_ofInt_of_contains {n : Int} (h : i32.contains n) : (Int32.ofInt n).toInt = n := by
  rw [Range.contains, Bool.and_eq_true, decide_eq_true_iff, decide_eq_true_iff] at h
  exact Int32.toInt_ofInt_of_le h.1 (Int.lt_add_one_of_le h.2)

theorem toNat_ofNat_of_contains {n : Int} (h : u8.contains n) :
    ((UInt8.ofNat n.toNat).toNat : Int) = n := by
  rw [Range.contains, Bool.and_eq_true, decide_eq_true_iff, decide_eq_true_iff] at h
  obtain ⟨hlow, hhigh⟩ := h
  change 0 ≤ n at hlow
  change n ≤ 255 at hhigh
  rw [UInt8.toNat_ofNat_of_lt' (by rw [UInt8.size]; omega), Int.toNat_of_nonneg hlow]

end Literal

namespace Shell

namespace Creation

/-! ## What is shown -/

/-- The types whose values are stored as they stand in a line. -/
def textTypes : List ValueType :=
  [.string, .double, .boolean, .javascript]

theorem draftOf_of_text {type : ValueType} (h : type ∈ textTypes) (value : List Char) :
    draftOf type value = .ok (.text (String.ofList value)) := by
  unfold textTypes at h
  fin_cases h <;> rfl

theorem sizing_of_text {type : ValueType} (h : type ∈ textTypes) :
    type.sizing = .ok Sizing.string := by
  unfold textTypes at h
  fin_cases h <;> rfl

/-- What is shown for a value that was given in a line: a text as it is, a number
and an address as they are written, a geometry as its text, or the error that
comes of it, and an angle or a float as what was stored. -/
def shown (type : ValueType) (value : List Char) (places : Nat) : Except Fault String :=
  match type with
  | .string | .double | .boolean | .javascript => .ok (String.ofList value)
  | .integer => toString <$> integerOf Literal.i32 value
  | .byte => toString <$> integerOf Literal.u8 value
  | .ipAddress => IpAddress.text <$> addressOf value
  | .wkb => geometryLine (String.ofList value) places
  | .single => do
    let x ← floatOf Binary.single value
    ((StoredValue.single (UInt32.ofNat (Binary.single.toBits x))).toText places).mapError .ofStore
  | .azimuth => do
    let x ← floatOf Binary.double value
    let angle := StoredValue.compress x StoredValue.azimuthMax
    ((StoredValue.azimuth angle).toText places).mapError .ofStore
  | .declination => do
    let x ← floatOf Binary.double value
    let angle := StoredValue.compress x StoredValue.declinationMax
    ((StoredValue.declination angle).toText places).mapError .ofStore
  | .coordinate | .object => .error (.plain s!"{type.name} values can't be stored")

theorem integerOf_eq_ok_iff {range : Literal.Range} {value : List Char} {n : Int} :
    integerOf range value = .ok n ↔ Literal.integer range value = .ok n :=
  mapError_eq_ok_iff

/-- **What was spelt is shown.** -/
theorem shown_of_draftOf {type : ValueType} {value : List Char} {draft : Draft}
    (h : draftOf type value = .ok draft) : ∃ stored, (type, stored) ∈ draft.readings ∧
      ∀ places, (stored.toText places).mapError Fault.ofStore = shown type value places := by
  cases type with
  | string | double | boolean | javascript =>
      obtain rfl := Except.ok.inj h
      refine ⟨.text (Utf8.encode (String.ofList value)), by simp [Draft.readings], ?_⟩
      intro places
      rw [StoredValue.toText_text]
      rfl
  | integer =>
      obtain ⟨n, hn, rfl⟩ := map_eq_ok_iff.mp h
      have hrange := Literal.contains_integer (by decide) (integerOf_eq_ok_iff.mp hn)
      refine ⟨.integer (Int32.ofInt n), by simp [Draft.readings], ?_⟩
      intro places
      rw [StoredValue.toText_integer, Decimal.ofList_characters, shown, hn,
        Literal.toInt_ofInt_of_contains hrange]
      rfl
  | byte =>
      obtain ⟨n, hn, rfl⟩ := map_eq_ok_iff.mp h
      have hrange := Literal.contains_integer (by decide) (integerOf_eq_ok_iff.mp hn)
      refine ⟨.byte (UInt8.ofNat n.toNat), by simp [Draft.readings], ?_⟩
      intro places
      rw [StoredValue.toText_byte, Decimal.ofList_characters, shown, hn,
        Literal.toNat_ofNat_of_contains hrange]
      rfl
  | ipAddress =>
      obtain ⟨address, haddress, rfl⟩ := map_eq_ok_iff.mp h
      refine ⟨.ipAddress address.octets, by simp [Draft.readings], ?_⟩
      intro places
      rw [StoredValue.toText_address, shown, haddress]
      rfl
  | wkb =>
      obtain ⟨bytes, hbytes, rfl⟩ := map_eq_ok_iff.mp h
      refine ⟨.wkb bytes, by simp [Draft.readings], ?_⟩
      intro places
      rw [StoredValue.toText_eq, shown, geometryLine, hbytes, StoredValue.pieces]
      simp only [bind, Except.bind, geometryText_eq]
      cases Piece.wholeText (Geometry.pieces bytes places) <;> rfl
  | single =>
      obtain ⟨x, hx, rfl⟩ := map_eq_ok_iff.mp h
      refine ⟨.single (UInt32.ofNat (Binary.single.toBits x)), by simp [Draft.readings], ?_⟩
      intro places
      simp only [shown, hx, bind, Except.bind]
  | azimuth =>
      obtain ⟨x, hx, rfl⟩ := map_eq_ok_iff.mp h
      refine ⟨.azimuth (StoredValue.compress x StoredValue.azimuthMax),
        by simp [Draft.readings], ?_⟩
      intro places
      simp only [shown, hx, bind, Except.bind]
  | declination =>
      obtain ⟨x, hx, rfl⟩ := map_eq_ok_iff.mp h
      refine ⟨.declination (StoredValue.compress x StoredValue.declinationMax),
        by simp [Draft.readings], ?_⟩
      intro places
      simp only [shown, hx, bind, Except.bind]
  | coordinate | object => cases h

/-- Nothing but a geometry fails to be shown. -/
theorem exists_shown {type : ValueType} {value : List Char} {draft : Draft}
    (h : draftOf type value = .ok draft) (htype : type ≠ .wkb) (places : Nat) :
    ∃ line, shown type value places = .ok line := by
  cases type with
  | string | double | boolean | javascript => exact ⟨_, rfl⟩
  | integer | byte =>
      obtain ⟨n, hn, -⟩ := map_eq_ok_iff.mp h
      exact ⟨toString n, by rw [shown, hn]; rfl⟩
  | ipAddress =>
      obtain ⟨address, haddress, -⟩ := map_eq_ok_iff.mp h
      exact ⟨address.text, by rw [shown, haddress]; rfl⟩
  | single | azimuth | declination =>
      obtain ⟨x, hx, -⟩ := map_eq_ok_iff.mp h
      simp only [shown, hx, bind, Except.bind, StoredValue.toText_eq]
      exact ⟨_, rfl⟩
  | wkb => exact absurd rfl htype
  | coordinate | object => cases h

/-! ## Records in a store -/

/-- Rows whose records lie one after another in data, from a place up to the end.
Each record is what the draft that its line spells is stored as. -/
inductive Laid (data : Bytes) : Nat → List Row → Prop
  | done : Laid data data.length []
  | row {row : Row} {rows : List Row} {front record back : Bytes} {draft : Draft}
      (hdata : data = front ++ record ++ back) (hoffset : row.offset.toNat = front.length)
      (hdraft : draftOf row.type row.value = .ok draft) (hrecord : draft.record = .ok record)
      (h : Laid data (front.length + record.length) rows) : Laid data front.length (row :: rows)

section

variable {w after : RecordWriter} {texts : List (List Char)} {rows : List Row} {row : Row}
  {data : Bytes} {first : Nat} {draft : Draft} {type : ValueType} {value : StoredValue}

/-- **Nothing that is written moves.** -/
theorem Accepts.prefix_data (h : Accepts w texts rows after) : w.data <+: after.data := by
  induction h with
  | nil w => exact List.prefix_rfl
  | skip _ _ ih => exact ih
  | record _ _ hwrite _ ih =>
      obtain ⟨record, -, -, -, hafter⟩ := Draft.write_eq_ok hwrite
      rw [hafter] at ih
      exact (List.prefix_append _ _).trans ih

theorem Accepts.laid (h : Accepts w texts rows after) : Laid after.data w.length rows := by
  induction h with
  | nil w => exact .done
  | skip _ _ ih => exact ih
  | @record w after text texts rows type value draft offset hsaid hdraft hwrite h ih =>
      obtain ⟨record, hrecord, hlength, rfl, hafter⟩ := Draft.write_eq_ok hwrite
      obtain ⟨back, hback⟩ := h.prefix_data
      rw [hafter] at ih hback
      have hnext : (⟨w.data ++ record, w.count + 1⟩ : RecordWriter).length =
          w.data.length + record.length := List.length_append
      rw [hnext] at ih
      exact .row hback.symm (UInt32.toNat_ofNat_of_lt' hlength) hdraft hrecord ih

theorem header_finished (hlength : data.length < 4294967296) :
    Header.ofFile ⟨Bytes.littleEndian 4 data.length ++ data, true⟩ 0 0 false =
      .ok (finishedHeader 0 data.length, 4) := by
  have hcontents : (⟨Bytes.littleEndian 4 data.length ++ data, true⟩ : DataFile).contents =
      [] ++ (Bytes.littleEndian 4 data.length ++ data) ++ [] := by simp
  exact ofFile_finished hcontents hlength

/-- What a store holds that was finished with the byte length of its data. -/
theorem told_finished (hlength : data.length < 4294967296) (key : Key) :
    Store.told (Bytes.littleEndian 4 data.length ++ data) key =
      Layout.record ⟨0, data.length, 0⟩ data key := by
  have hlimit : (Bytes.littleEndian 4 data.length ++ data).length < Handle.positionLimit := by
    rw [List.length_append, Bytes.length_littleEndian]
    unfold Handle.positionLimit
    omega
  have hcontents : (⟨Bytes.littleEndian 4 data.length ++ data, true⟩ : DataFile).contents =
      [] ++ (Bytes.littleEndian 4 data.length ++ data) ++ [] := by simp
  unfold Store.told
  rw [header_finished hlength]
  exact reading_finished hcontents hlimit hlength key

/-- **A record is told at the offset of its row**, and decoded to what the line
spelt. -/
theorem Laid.told (h : Laid data first rows) (hlength : data.length < 4294967296)
    (hrow : row ∈ rows) : ∃ draft record, draftOf row.type row.value = .ok draft ∧
      draft.record = .ok record ∧ ∀ type value, (type, value) ∈ draft.readings →
        ∃ sizing, type.sizing = .ok sizing ∧
          Store.told (Bytes.littleEndian 4 data.length ++ data) ⟨row.offset, sizing⟩ =
            .ok record ∧ StoredValue.decode record type = .ok value := by
  induction h with
  | done => cases hrow
  | @row other rows front record back draft hdata hoffset hdraft hrecord _ ih =>
      rcases List.mem_cons.mp hrow with rfl | hrest
      · refine ⟨draft, record, hdraft, hrecord, ?_⟩
        intro type value hreading
        obtain ⟨sizing, hsizing, hread, hdecode⟩ :=
          Draft.record_of_reading hdata hlength hoffset hrecord hreading
        exact ⟨sizing, hsizing, (told_finished hlength _).trans hread, hdecode⟩
      · exact ih hrest

/-! ## What the commands say -/

variable {store : Store} {contents : Bytes}

/-- **A record is shown** as what its line said. -/
theorem Laid.get (h : Laid data first rows) (hlength : data.length < 4294967296)
    (hstore : store.Faithful (Bytes.littleEndian 4 data.length ++ data)) (hrow : row ∈ rows)
    (places? : Option Nat) : ((Command.get row.offset row.type places?).run store).1 =
      .ofLine (shown row.type row.value (places?.getD FixedPoint.maxPlaces)) := by
  obtain ⟨draft, record, hdraft, -, hreadings⟩ := h.told hlength hrow
  obtain ⟨stored, hreading, hshown⟩ := shown_of_draftOf hdraft
  obtain ⟨sizing, hsizing, htold, hdecode⟩ := hreadings _ _ hreading
  rw [← hshown, Command.run, Store.withValue_eq hstore, hsizing]
  simp only [bind, Except.bind, htold, hdecode]

/-- A row as it is listed. -/
def Row.listed (row : Row) : String :=
  s!"{row.offset}: " ++ String.ofList row.value

/-- Texts are listed one after another, read as texts of any type. -/
theorem Laid.reads (h : Laid data first rows) (hlength : data.length < 4294967296)
    (htexts : ∀ row ∈ rows, row.type ∈ textTypes) (htype : type ∈ textTypes) :
    Walk.Reads (fun address => Store.told (Bytes.littleEndian 4 data.length ++ data)
        ⟨address, Sizing.string⟩)
      (fun address bytes => do
        let text ← (← StoredValue.decode bytes type).toText FixedPoint.maxPlaces
        return s!"{address}: " ++ text) data.length first (rows.map Row.listed) := by
  induction h with
  | done => exact .done
  | @row row rows front record back draft hdata hoffset hdraft hrecord h ih =>
      obtain ⟨htext, htexts⟩ := List.forall_mem_cons.mp htexts
      have hlaid : Laid data front.length (row :: rows) := .row hdata hoffset hdraft hrecord h
      obtain ⟨draft', record', hdraft', hrecord', hreadings⟩ :=
        hlaid.told hlength List.mem_cons_self
      obtain rfl := Except.ok.inj (hdraft.symm.trans hdraft')
      obtain rfl := Except.ok.inj (hrecord.symm.trans hrecord')
      rw [draftOf_of_text htext] at hdraft
      obtain rfl := Except.ok.inj hdraft
      obtain ⟨sizing, hsizing, htold, hdecode⟩ :=
        hreadings type (.text (Utf8.encode (String.ofList row.value))) (List.mem_map_of_mem htype)
      obtain rfl := Except.ok.inj ((sizing_of_text htype).symm.trans hsizing)
      have haddress : UInt32.ofNat front.length = row.offset := by
        rw [← hoffset, UInt32.ofNat_toNat]
      refine .record ?_ (Draft.length_record_pos hrecord) ?_ (ih htexts)
      · rw [haddress]
        exact htold
      · rw [haddress, hdecode]
        simp only [bind, Except.bind, StoredValue.toText_text]
        rfl

/-- **All texts are listed**, and nothing else. -/
theorem Laid.records (h : Laid data 0 rows) (hlength : data.length < 4294967296)
    (hstore : store.Faithful (Bytes.littleEndian 4 data.length ++ data))
    (htexts : ∀ row ∈ rows, row.type ∈ textTypes) (htype : type ∈ textTypes) :
    ((Command.records type).run store).1 = ⟨rows.map Row.listed, none⟩ := by
  have hreads := h.reads hlength htexts htype
  have hlayout : store.collection.layout = ⟨0, data.length, 0⟩ := by
    rw [hstore.layout _ _ (header_finished hlength), layout_finished 0 hlength]
  obtain ⟨standing, hstanding, htells⟩ := hstore.tells Sizing.string
  have hfixed : (store.collection.walk Sizing.string).collection.layout.isFixed = false := by
    show store.collection.layout.isFixed = false
    rw [hlayout]
    rfl
  have hsize : (store.collection.walk Sizing.string).collection.size = data.length :=
    congrArg Layout.size hlayout
  have hlimit : (store.collection.walk Sizing.string).limit = data.length := by
    rw [Walk.limit, if_neg (ne_true_of_eq_false hfixed), hsize]
  have hfew := hreads.length_le
  have hreport := Walk.take_of_reads hreads hlength hfixed hsize rfl rfl rfl htells hstanding
    (show (rows.map Row.listed).length < data.length + 1 by omega)
  show (store.listing type).1 = _
  unfold Store.listing
  rw [sizing_of_text htype]
  simp only [Walk.takeAll, hlimit, hreport, Bool.false_eq_true, if_false, List.append_nil,
    Option.map_none]

/-- **A store can be opened** in every way for which there can be a cache, if one
is asked for. -/
theorem exists_ofContents {config : CollectionConfig} (hlength : data.length < 4294967296)
    (hcreate : config.hasCache → ∃ cache,
      Cache.create config.capacity config.concurrency Collection.spread = .ok cache) :
    ∃ store, Store.ofContents config (Bytes.littleEndian 4 data.length ++ data) = .ok store := by
  let storage := Storage.over ⟨Bytes.littleEndian 4 data.length ++ data, true⟩
    ⟨max config.concurrency.toNat 1, [], 0, 0⟩
  have htotal : storage.file.contents.length = 4 + data.length := by
    show (Bytes.littleEndian 4 data.length ++ data).length = _
    rw [List.length_append, Bytes.length_littleEndian]
  have hstart := start_finished (show 0 + 4 < Handle.positionLimit by decide) data.length
  obtain ⟨source, after, hsource⟩ :=
    exists_openSource hcreate (finishedHeader 0 data.length).start storage
  obtain ⟨c, position, left, hopen, -⟩ := exists_ofFile_of_source hsource
    (by rw [hstart, layout_finished 0 hlength, htotal]) (by
      rw [htotal]
      unfold Handle.positionLimit
      omega)
  refine ⟨⟨c, left⟩, bind_eq_ok_iff.mpr ⟨⟨max config.concurrency.toNat 1, [], 0, 0⟩, ?_, ?_⟩⟩
  · exact if_neg (by omega)
  · exact bind_eq_ok_iff.mpr ⟨_, header_finished hlength,
      bind_eq_ok_iff.mpr ⟨((c, position), left), hopen, rfl⟩⟩

end

end Creation

end Shell

end RecordStore
