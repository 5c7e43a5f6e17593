import RecordStore.IpAddress
import RecordStore.Text.Utf8
import RecordStore.Value.Basic

/-!
# Producing collections

Records are appended one after another in the form they are stored in, and
each append yields the byte offset its record starts at.  The finished data
starts with a header of four bytes: the byte length of the records, or their
number.

A record that cannot be stored is refused, and a refusal changes nothing
(`writer_of_refused`).
-/

namespace RecordStore

/-- Why a record was not appended. -/
inductive WriteError
  /-- The length of the record does not fit its 16 bits. -/
  | tooLong (length : Nat)
  /-- The text holds the byte that ends texts. -/
  | terminator
  /-- The records are longer than offsets reach. -/
  | outOfRange
  deriving DecidableEq, Repr

/-- The wording of a refusal to append. -/
def WriteError.message : WriteError → String
  | .tooLong length => s!"record of {length} bytes is too long"
  | .terminator => "strings can't contain a terminator"
  | .outOfRange => "out of range integral type conversion attempted"

/-- Records in the order they were appended, and how many they are. -/
structure RecordWriter where
  data : Bytes
  count : UInt32
  deriving DecidableEq, Repr, Inhabited

/-- What came of appending a record: its offset, or why it was refused, and the
writer afterwards. -/
structure WriteOutcome where
  result : Except WriteError UInt32
  writer : RecordWriter

/-- The offset and the writer, for those who go on only after a success. -/
def WriteOutcome.appended (outcome : WriteOutcome) : Except WriteError (UInt32 × RecordWriter) :=
  outcome.result.map fun offset => (offset, outcome.writer)

theorem WriteOutcome.appended_eq_ok_iff {outcome : WriteOutcome} {offset : UInt32}
    {after : RecordWriter} :
    outcome.appended = .ok (offset, after) ↔ outcome.result = .ok offset ∧ outcome.writer = after := by
  unfold appended
  cases outcome.result <;> simp [Except.map]

instance : Coe WriteOutcome (Except WriteError (UInt32 × RecordWriter)) where
  coe := WriteOutcome.appended

namespace RecordWriter

/-- No records. -/
def empty : RecordWriter :=
  ⟨[], 0⟩

/-- The byte length of the records. -/
def length (w : RecordWriter) : Nat :=
  w.data.length

/-- The offset that the next record gets, if offsets reach there. -/
def nextOffset (w : RecordWriter) : Except WriteError UInt32 :=
  if w.length < 4294967296 then .ok (UInt32.ofNat w.length) else .error .outOfRange

/-- Appends a record as it is stored. -/
def append (w : RecordWriter) (record : Bytes) : WriteOutcome :=
  match w.nextOffset with
  | .ok offset => ⟨.ok offset, ⟨w.data ++ record, w.count + 1⟩⟩
  | .error e => ⟨.error e, w⟩

/-- Appends a record, unless it cannot be stored. -/
def attempt (w : RecordWriter) (record : Except WriteError Bytes) : WriteOutcome :=
  match record with
  | .ok record => w.append record
  | .error e => ⟨.error e, w⟩

/-- Bytes after their length in 16 bits. -/
def prefixed (bytes : Bytes) : Except WriteError Bytes :=
  if bytes.length ≤ 32767 then .ok (Bytes.littleEndian 2 bytes.length ++ bytes)
  else .error (.tooLong bytes.length)

/-- Text with its terminator, after a length that counts it. -/
def terminated (text : String) : Except WriteError Bytes :=
  let bytes := Utf8.encode text
  if 0 ∈ bytes then .error .terminator else prefixed (bytes ++ [0])

/-- Appends bytes with their length. -/
def byteArray (w : RecordWriter) (bytes : Bytes) : WriteOutcome :=
  w.attempt (prefixed bytes)

/-- Appends text with its terminator; the length counts it. -/
def string (w : RecordWriter) (text : String) : WriteOutcome :=
  w.attempt (terminated text)

/-- Appends the octets of an address. -/
def ipAddress (w : RecordWriter) (address : IpAddress) : WriteOutcome :=
  w.byteArray address.octets

/-- Appends a 32 bit integer. -/
def integer (w : RecordWriter) (value : Int32) : WriteOutcome :=
  w.append (Bytes.littleEndian 4 value.toUInt32.toNat)

/-- Appends a single precision float, given by its bits. -/
def single (w : RecordWriter) (bits : UInt32) : WriteOutcome :=
  w.append (Bytes.littleEndian 4 bits.toNat)

/-- Appends a 16 bit integer. -/
def short (w : RecordWriter) (value : Int16) : WriteOutcome :=
  w.append (Bytes.littleEndian 2 value.toUInt16.toNat)

/-- Appends an angle in degrees as an azimuth. -/
def azimuth (w : RecordWriter) (angle : Binary.Datum) : WriteOutcome :=
  w.short (StoredValue.compress angle StoredValue.azimuthMax)

/-- Appends an angle in degrees as a declination. -/
def declination (w : RecordWriter) (angle : Binary.Datum) : WriteOutcome :=
  w.short (StoredValue.compress angle StoredValue.declinationMax)

/-- Appends one byte. -/
def byte (w : RecordWriter) (value : UInt8) : WriteOutcome :=
  w.append [value]

/-- Appends a record of numbers of four bytes. -/
def words (w : RecordWriter) (values : List UInt32) : WriteOutcome :=
  w.append (values.flatMap fun v => Bytes.littleEndian 4 v.toNat)

/-- The records after their byte length. -/
def finishWithLength (w : RecordWriter) : Except WriteError Bytes :=
  if w.length < 4294967296 then .ok (Bytes.littleEndian 4 w.length ++ w.data) else .error .outOfRange

/-- The records after their number. -/
def finishWithCount (w : RecordWriter) : Bytes :=
  Bytes.littleEndian 4 w.count.toNat ++ w.data

/-- **A refusal changes nothing.**  Whatever is appended is attempted as some
record. -/
theorem writer_of_refused {w : RecordWriter} {record : Except WriteError Bytes} {e : WriteError}
    (h : (w.attempt record).result = .error e) : (w.attempt record).writer = w := by
  unfold attempt append at h ⊢
  split at h
  · split at h
    · cases h
    · rfl
  · rfl

/-- **Offsets are lengths.**  As long as offsets reach there, an append yields the
byte length before it and puts the record after everything else. -/
theorem append_of_lt {w : RecordWriter} (h : w.length < 4294967296) (record : Bytes) :
    w.append record = ⟨.ok (UInt32.ofNat w.length), ⟨w.data ++ record, w.count + 1⟩⟩ := by
  rw [append, nextOffset, if_pos h]

theorem lt_of_append {w : RecordWriter} {record : Bytes} {offset : UInt32}
    (h : (w.append record).result = .ok offset) : w.length < 4294967296 := by
  unfold append nextOffset at h
  split at h
  · next hoffset =>
      split at hoffset
      · assumption
      · cases hoffset
  · cases h

end RecordWriter

end RecordStore
