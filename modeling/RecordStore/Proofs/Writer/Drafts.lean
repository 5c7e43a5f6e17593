import Mathlib
import RecordStore.RecordWriter

/-!
# Values and their records

A `Draft` is a value as it is handed to a writer.  Its record, if it can be
stored, says its own length to whoever reads it with the sizing of its type,
and is decoded to the value (`Draft.decodes`).

`written` is the writer after some drafts were handed to it.  One that is refused
leaves it as it was (`written_of_refused`).  Nothing that is in it ever moves
(`written_split`), so the offset of a record stays what it was when it was
appended.
-/

namespace RecordStore

/-! ## Numbers -/

/-- A number reads back from its bytes, whatever follows them. -/
theorem leading?_littleEndian (width n : Nat) (rest : Bytes) :
    Bytes.leading? width (Bytes.littleEndian width n ++ rest) = some (n % Nat.pow 256 width) := by
  have hsplit : Bytes.split? width (Bytes.littleEndian width n ++ rest) =
      some (Bytes.littleEndian width n, rest) :=
    Bytes.split?_eq_some_iff.mpr ⟨rfl, Bytes.length_littleEndian width n⟩
  rw [Bytes.leading?, hsplit, ← Bytes.ofLittleEndian_littleEndian]
  rfl

/-- A number that fits reads back as it is. -/
theorem leading?_littleEndian_of_lt {width n : Nat} (h : n < Nat.pow 256 width) (rest : Bytes) :
    Bytes.leading? width (Bytes.littleEndian width n ++ rest) = some n := by
  rw [leading?_littleEndian, Nat.mod_eq_of_lt h]

theorem number_littleEndian {n : Nat} (width : Nat) (h : n < Nat.pow 256 width) :
    StoredValue.number width (Bytes.littleEndian width n) = .ok n := by
  have hleading := leading?_littleEndian_of_lt h []
  rw [List.append_nil] at hleading
  rw [StoredValue.number, hleading]

/-! ## Lengths before bytes -/

/-- A length in 16 bits is understood, whatever follows it. -/
theorem lengthPrefixed_littleEndian {length : Nat} (h : length ≤ 32767) (rest : Bytes) :
    Sizing.lengthPrefixed (Bytes.littleEndian 2 length ++ rest) =
      .ok (UInt32.ofNat (2 + length)) := by
  have hleading := leading?_littleEndian_of_lt (show length < Nat.pow 256 2 by
    have hpow : Nat.pow 256 2 = 65536 := by decide
    omega) rest
  have hvalue : (Int16.ofNat length).toInt = length := Int16.toInt_ofNat_of_lt (by omega)
  have hint : Sizing.int16 (Bytes.littleEndian 2 length ++ rest) = some (length : Int) := by
    rw [Sizing.int16, hleading, Option.map_some, hvalue]
  have hnonneg : ¬ (length : Int) < 0 := by omega
  rw [Sizing.lengthPrefixed, hint]
  simp only [hnonneg, if_false, Int.toNat_natCast]

theorem prefixed_eq_ok_iff {bytes record : Bytes} : RecordWriter.prefixed bytes = .ok record ↔
    bytes.length ≤ 32767 ∧ Bytes.littleEndian 2 bytes.length ++ bytes = record := by
  unfold RecordWriter.prefixed
  split <;> simp_all

theorem prefixed_isOk_iff {bytes : Bytes} :
    (∃ record, RecordWriter.prefixed bytes = .ok record) ↔ bytes.length ≤ 32767 := by
  simp [prefixed_eq_ok_iff]

theorem length_prefixed (bytes : Bytes) :
    (Bytes.littleEndian 2 bytes.length ++ bytes).length = 2 + bytes.length := by
  rw [List.length_append, Bytes.length_littleEndian]

/-- What was put after its length is what follows it. -/
theorem payload_prefixed {bytes record : Bytes} (h : RecordWriter.prefixed bytes = .ok record) :
    StoredValue.payload record = .ok bytes := by
  obtain ⟨hlength, rfl⟩ := prefixed_eq_ok_iff.mp h
  have htotal : (UInt32.ofNat (2 + bytes.length)).toNat = 2 + bytes.length :=
    UInt32.toNat_ofNat_of_lt' (by rw [UInt32.size]; omega)
  have hall := length_prefixed bytes
  unfold StoredValue.payload
  rw [lengthPrefixed_littleEndian hlength]
  simp only [bind, Except.bind, htotal, hall, le_refl, if_true, pure, Except.pure]
  rw [List.take_of_length_le (Nat.le_of_eq hall),
    List.drop_left' (Bytes.length_littleEndian 2 bytes.length)]

theorem terminated_prefixed {text record : Bytes}
    (h : RecordWriter.prefixed (text ++ [0]) = .ok record) :
    StoredValue.terminated record = .ok text := by
  unfold StoredValue.terminated
  rw [payload_prefixed h]
  simp [bind, Except.bind, pure, Except.pure]

/-! ## Sizings -/

/-- A sizing finds out the length of a record from its first bytes. -/
structure Sizing.Sizes (sizing : Sizing) (record : Bytes) : Prop where
  initial : sizing.initialBytes.toNat ≤ record.length
  full : sizing.fullLength (record.take sizing.initialBytes.toNat) =
    .ok (UInt32.ofNat record.length)

theorem sizes_fixed {name : String} {size : UInt32} {record : Bytes}
    (h : record.length = size.toNat) : (Sizing.fixed name size).Sizes record := by
  refine ⟨Nat.le_of_eq h.symm, ?_⟩
  rw [h, UInt32.ofNat_toNat]
  rfl

/-- Texts and bytes are sized alike. -/
theorem sizes_prefixed (name : String) {bytes record : Bytes}
    (h : RecordWriter.prefixed bytes = .ok record) :
    (Sizing.headed name 2 Sizing.lengthPrefixed).Sizes record := by
  obtain ⟨hlength, rfl⟩ := prefixed_eq_ok_iff.mp h
  have hall := length_prefixed bytes
  have hfront : (Bytes.littleEndian 2 bytes.length ++ bytes).take (2 : UInt32).toNat =
      Bytes.littleEndian 2 bytes.length ++ [] := by
    rw [List.append_nil]
    exact List.take_left' (Bytes.length_littleEndian 2 _)
  refine ⟨?_, ?_⟩
  · rw [hall]
    exact Nat.le_add_right 2 _
  · have hfull : (Sizing.headed name 2 Sizing.lengthPrefixed).fullLength =
        Sizing.lengthPrefixed := rfl
    have hinitial : (Sizing.headed name 2 Sizing.lengthPrefixed).initialBytes = 2 := rfl
    rw [hfull, hinitial, hfront, lengthPrefixed_littleEndian hlength, hall]

/-! ## Drafts -/

/-- A value as it is handed to a writer. -/
inductive Draft
  | text (value : String)
  | bytes (value : Bytes)
  | address (value : IpAddress)
  | integer (value : Int32)
  /-- A single precision float, given by its bits. -/
  | single (bits : UInt32)
  | short (value : Int16)
  | byte (value : UInt8)

namespace Draft

/-- Appends a value. -/
def write (draft : Draft) (w : RecordWriter) : WriteOutcome :=
  match draft with
  | .text value => w.string value
  | .bytes value => w.byteArray value
  | .address value => w.ipAddress value
  | .integer value => w.integer value
  | .single bits => w.single bits
  | .short value => w.short value
  | .byte value => w.byte value

/-- The types that a value is written as, and what is to be read back as
each. -/
def readings : Draft → List (ValueType × StoredValue)
  | .text value =>
    [.string, .double, .boolean, .javascript].map fun type => (type, .text (Utf8.encode value))
  | .bytes value => [(.wkb, .wkb value), (.ipAddress, .ipAddress value)]
  | .address value => [(.ipAddress, .ipAddress value.octets)]
  | .integer value => [(.integer, .integer value)]
  | .single bits => [(.single, .single bits)]
  | .short value => [(.azimuth, .azimuth value), (.declination, .declination value)]
  | .byte value => [(.byte, .byte value)]

/-- What a value is stored as. -/
def record : Draft → Except WriteError Bytes
  | .text value => RecordWriter.terminated value
  | .bytes value => RecordWriter.prefixed value
  | .address value => RecordWriter.prefixed value.octets
  | .integer value => .ok (Bytes.littleEndian 4 value.toUInt32.toNat)
  | .single bits => .ok (Bytes.littleEndian 4 bits.toNat)
  | .short value => .ok (Bytes.littleEndian 2 value.toUInt16.toNat)
  | .byte value => .ok [value]

/-- Can a value be stored?  The length of bytes, and of a text with its
terminator, has to fit in 16 bits, and a text must not have a terminator in
it. -/
def Storable : Draft → Prop
  | .text value => 0 ∉ Utf8.encode value ∧ (Utf8.encode value).length ≤ 32766
  | .bytes value => value.length ≤ 32767
  | .address _ | .integer _ | .single _ | .short _ | .byte _ => True

theorem write_eq (draft : Draft) (w : RecordWriter) : draft.write w = w.attempt draft.record := by
  cases draft <;> rfl

/-- A record is appended whole. -/
theorem write_of_record {draft : Draft} {record : Bytes} (hrecord : draft.record = .ok record)
    {w : RecordWriter} (hlength : w.length < 4294967296) :
    draft.write w = ⟨.ok (UInt32.ofNat w.length), ⟨w.data ++ record, w.count + 1⟩⟩ := by
  rw [write_eq, hrecord]
  exact RecordWriter.append_of_lt hlength record

/-- What is not refused is appended as its record. -/
theorem write_eq_ok {draft : Draft} {w : RecordWriter} {offset : UInt32}
    (h : (draft.write w).result = .ok offset) : ∃ record, draft.record = .ok record ∧
      w.length < 4294967296 ∧ offset = UInt32.ofNat w.length ∧
        (draft.write w).writer = ⟨w.data ++ record, w.count + 1⟩ := by
  cases hrecord : draft.record with
  | error e =>
      rw [write_eq, hrecord] at h
      cases h
  | ok record =>
      have hlength : w.length < 4294967296 := by
        rw [write_eq, hrecord] at h
        exact RecordWriter.lt_of_append h
      rw [write_of_record hrecord hlength] at h ⊢
      exact ⟨record, rfl, hlength, (Except.ok.inj h).symm, rfl⟩

/-- A text is stored with its terminator, and without another. -/
theorem record_text {value : String} {record : Bytes} :
    (Draft.text value).record = .ok record ↔
      0 ∉ Utf8.encode value ∧ RecordWriter.prefixed (Utf8.encode value ++ [0]) = .ok record := by
  simp only [Draft.record, RecordWriter.terminated]
  split
  · next hzero => simp [hzero]
  · next hzero => simp [hzero]

theorem record_isOk_iff (draft : Draft) :
    (∃ record, draft.record = .ok record) ↔ draft.Storable := by
  cases draft with
  | text value =>
      simp only [record_text, exists_and_left, prefixed_isOk_iff, Storable, List.length_append,
        List.length_singleton]
      exact and_congr_right fun _ => by omega
  | bytes value => exact prefixed_isOk_iff
  | address value =>
      have hlength : value.octets.length ≤ 32767 := by
        rcases value.length_octets with h | h <;> omega
      simpa [Draft.record, Storable] using prefixed_isOk_iff.mpr hlength
  | integer | single | short | byte => simp [Draft.record, Storable]

theorem length_record_pos {draft : Draft} {record : Bytes} (h : draft.record = .ok record) :
    0 < record.length := by
  have hfronted : ∀ {value}, RecordWriter.prefixed value = .ok record → 0 < record.length := by
    intro value hvalue
    have hinitial := (sizes_prefixed "" hvalue).initial
    exact Nat.lt_of_lt_of_le (by decide) hinitial
  cases draft with
  | text => exact hfronted (record_text.mp h).2
  | bytes | address => exact hfronted h
  | integer | single | short =>
      obtain rfl := Except.ok.inj h
      simp
  | byte =>
      obtain rfl := Except.ok.inj h
      exact Nat.one_pos

/-- **A record is sized and decoded as what it is.** -/
theorem decodes {draft : Draft} {record : Bytes} {type : ValueType} {value : StoredValue}
    (h : draft.record = .ok record) (hreading : (type, value) ∈ draft.readings) :
    ∃ sizing, type.sizing = .ok sizing ∧ sizing.Sizes record ∧
      StoredValue.decode record type = .ok value := by
  cases draft with
  | text text =>
      have hfronted := (record_text.mp h).2
      have hterminated := terminated_prefixed hfronted
      have hdecode : ∀ type ∈ [ValueType.string, .double, .boolean, .javascript],
          type.sizing = .ok Sizing.string ∧
            StoredValue.decode record type = .ok (.text (Utf8.encode text)) := by
        intro type htype
        fin_cases htype <;> exact ⟨rfl, by simp [StoredValue.decode, hterminated]⟩
      obtain ⟨type', htype, heq⟩ := List.mem_map.mp hreading
      obtain ⟨rfl, rfl⟩ := Prod.mk.inj heq
      obtain ⟨hsizing, hvalue⟩ := hdecode type' htype
      exact ⟨_, hsizing, sizes_prefixed _ hfronted, hvalue⟩
  | bytes bytes =>
      simp only [readings, List.mem_cons, List.not_mem_nil, or_false, Prod.mk.injEq] at hreading
      have hpayload := payload_prefixed h
      rcases hreading with ⟨rfl, rfl⟩ | ⟨rfl, rfl⟩
      · exact ⟨_, rfl, sizes_prefixed _ h, by simp [StoredValue.decode, hpayload]⟩
      · exact ⟨_, rfl, sizes_prefixed _ h, by simp [StoredValue.decode, hpayload]⟩
  | address address =>
      obtain ⟨rfl, rfl⟩ := Prod.mk.inj (List.mem_singleton.mp hreading)
      have hpayload := payload_prefixed h
      exact ⟨_, rfl, sizes_prefixed _ h, by simp [StoredValue.decode, hpayload]⟩
  | integer n =>
      obtain ⟨rfl, rfl⟩ := Prod.mk.inj (List.mem_singleton.mp hreading)
      obtain rfl := Except.ok.inj h
      have hnumber := number_littleEndian 4 n.toUInt32.toNat_lt
      have hvalue : Int32.ofNat n.toUInt32.toNat = n := by
        apply Int32.toBitVec_inj.mp
        simp
      refine ⟨_, rfl, sizes_fixed (Bytes.length_littleEndian 4 _), ?_⟩
      simp [StoredValue.decode, hnumber, hvalue]
  | single bits =>
      obtain ⟨rfl, rfl⟩ := Prod.mk.inj (List.mem_singleton.mp hreading)
      obtain rfl := Except.ok.inj h
      have hnumber := number_littleEndian 4 bits.toNat_lt
      refine ⟨_, rfl, sizes_fixed (Bytes.length_littleEndian 4 _), ?_⟩
      simp [StoredValue.decode, hnumber]
  | short n =>
      simp only [readings, List.mem_cons, List.not_mem_nil, or_false, Prod.mk.injEq] at hreading
      obtain rfl := Except.ok.inj h
      have hnumber := number_littleEndian 2 n.toUInt16.toNat_lt
      have hvalue : Int16.ofNat n.toUInt16.toNat = n := by
        apply Int16.toBitVec_inj.mp
        simp
      have hsizes : Sizing.short.Sizes (Bytes.littleEndian 2 n.toUInt16.toNat) :=
        sizes_fixed (Bytes.length_littleEndian 2 _)
      rcases hreading with ⟨rfl, rfl⟩ | ⟨rfl, rfl⟩
      · exact ⟨_, rfl, hsizes, by simp [StoredValue.decode, hnumber, hvalue]⟩
      · exact ⟨_, rfl, hsizes, by simp [StoredValue.decode, hnumber, hvalue]⟩
  | byte b =>
      obtain ⟨rfl, rfl⟩ := Prod.mk.inj (List.mem_singleton.mp hreading)
      obtain rfl := Except.ok.inj h
      exact ⟨_, rfl, sizes_fixed rfl, rfl⟩

end Draft

/-! ## Writers -/

/-- The writer after a draft, also if the draft was refused. -/
def RecordWriter.keep (w : RecordWriter) (draft : Draft) : RecordWriter :=
  (draft.write w).writer

/-- The writer after some drafts. -/
def written (drafts : List Draft) : RecordWriter :=
  drafts.foldl RecordWriter.keep .empty

variable {draft : Draft} {w : RecordWriter} {offset : UInt32} {before : List Draft}

/-- **A draft that is refused** leaves the writer as it was. -/
theorem keep_of_refused {e : WriteError} (h : (draft.write w).result = .error e) :
    w.keep draft = w := by
  rw [Draft.write_eq] at h
  rw [RecordWriter.keep, Draft.write_eq]
  exact RecordWriter.writer_of_refused h

theorem written_snoc (before : List Draft) (draft : Draft) :
    written (before ++ [draft]) = (written before).keep draft := by
  rw [written, List.foldl_append]
  rfl

theorem written_of_refused {e : WriteError}
    (h : (draft.write (written before)).result = .error e) :
    written (before ++ [draft]) = written before := by
  rw [written_snoc, keep_of_refused h]

/-- **Nothing that is written moves**: a writer has what it had before at its
start. -/
theorem prefix_data_foldl (drafts : List Draft) (w : RecordWriter) :
    w.data <+: (drafts.foldl RecordWriter.keep w).data := by
  induction drafts generalizing w with
  | nil => exact List.prefix_rfl
  | cons draft drafts ih =>
      have hkeep : w.data <+: (w.keep draft).data := by
        cases hwrite : (draft.write w).result with
        | error e => rw [keep_of_refused hwrite]
        | ok offset =>
            obtain ⟨record, -, -, -, hafter⟩ := Draft.write_eq_ok hwrite
            rw [RecordWriter.keep, hafter]
            exact List.prefix_append _ _
      exact hkeep.trans (ih (w.keep draft))

theorem prefix_data_written (before rest : List Draft) :
    (written before).data <+: (written (before ++ rest)).data := by
  rw [written, written, List.foldl_append]
  exact prefix_data_foldl rest _

/-- A record lies where it was put, behind all that was there before. -/
theorem written_split (h : (draft.write (written before)).result = .ok offset)
    (rest : List Draft) :
    ∃ record tail, draft.record = .ok record ∧
      (written (before ++ draft :: rest)).data = (written before).data ++ record ++ tail := by
  obtain ⟨record, hrecord, -, -, hafter⟩ := Draft.write_eq_ok h
  obtain ⟨tail, htail⟩ := prefix_data_written (before ++ [draft]) rest
  refine ⟨record, tail, hrecord, ?_⟩
  rw [written_snoc, RecordWriter.keep, hafter] at htail
  rw [List.append_cons]
  exact htail.symm

end RecordStore
