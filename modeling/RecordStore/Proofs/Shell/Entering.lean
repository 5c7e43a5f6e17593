import Mathlib
import RecordStore.Proofs.Collection.Streaming
import RecordStore.Proofs.Writer.Drafts
import RecordStore.Shell.Creation

/-!
# Lines and their records

A line of a source says the type and the value of a record, unless it is blank
or begins with `#` (`isRecord`, `said?`).  The value spells a draft for a writer
(`draftOf`), and a line is accepted if the writer takes it (`line_eq_ok_iff`).

`Accepts` is the course of a creation whose lines are all accepted, with a row
for each record: its offset, and what the line said.  Lines without a record
change nothing in it (`accepts_filter`).
-/

namespace RecordStore.Shell.Creation

/-! ## What lines say -/

/-- Is there a record on a line? -/
def isRecord (text : List Char) : Bool :=
  match Blank.trim text with
  | [] => false
  | '#' :: _ => false
  | _ => true

/-- The type and the value that a line says, if there is a record on it and it
names a type. -/
def said? (text : List Char) : Option (ValueType × List Char) :=
  if isRecord text then
    (ValueType.ofName? (String.ofList (Blank.cut (Blank.trim text)).1)).map
      (·, Blank.trim (Blank.cut (Blank.trim text)).2)
  else none

/-- The draft that a value of a type spells. -/
def draftOf (type : ValueType) (value : List Char) : Except Fault Draft :=
  match type with
  | .string | .double | .boolean | .javascript => .ok (.text (String.ofList value))
  | .integer => (fun n => .integer (Int32.ofInt n)) <$> integerOf Literal.i32 value
  | .single =>
    (fun x => .single (UInt32.ofNat (Binary.single.toBits x))) <$> floatOf Binary.single value
  | .byte => (fun n => .byte (UInt8.ofNat n.toNat)) <$> integerOf Literal.u8 value
  | .azimuth =>
    (fun x => .short (StoredValue.compress x StoredValue.azimuthMax)) <$>
      floatOf Binary.double value
  | .declination =>
    (fun x => .short (StoredValue.compress x StoredValue.declinationMax)) <$>
      floatOf Binary.double value
  | .ipAddress => .address <$> addressOf value
  | .wkb => .bytes <$> bytesOf (String.ofList value)
  | .coordinate | .object => .error (.plain s!"{type.name} values can't be stored")

/-- A line that cannot be accepted: there is a record on it, but it names no
type, or its value spells nothing that can be stored. -/
def Refused (text : List Char) : Prop :=
  isRecord text = true ∧ ∀ type value draft, said? text = some (type, value) →
    draftOf type value = .ok draft → ¬ draft.Storable

/-! ## Lines -/

/-- A record of a creation: its offset, and the type and the value that the line
said. -/
structure Row where
  offset : UInt32
  type : ValueType
  value : List Char
  deriving DecidableEq, Repr

/-- What is printed for a record. -/
def Row.line (row : Row) : String :=
  s!"{row.offset}: {row.type.name}"

/-- What is printed tells the offset. -/
theorem Row.offset_eq {row other : Row} (hline : row.line = other.line)
    (htype : row.type = other.type) : row.offset = other.offset := by
  have hdigits : (toString row.offset).toList = (toString other.offset).toList := by
    unfold Row.line at hline
    rw [htype] at hline
    have hcharacters := congrArg String.toList hline
    simpa using hcharacters
  have hsame : Nat.toDigits 10 row.offset.toNat = Nat.toDigits 10 other.offset.toNat := by
    simpa [toString] using hdigits
  have hvalue := congrArg (Nat.ofDigitChars 10 · 0) hsame
  simp only [Nat.ofDigitChars_ten_toDigits] at hvalue
  exact UInt32.toNat_inj.mp hvalue

section

variable {w after : RecordWriter} {type : ValueType} {value text : List Char}
  {number other : Nat} {offset : UInt32} {printed? : Option String} {draft : Draft}

/-- **A value is appended** as the draft that it spells. -/
theorem append_eq (w : RecordWriter) (type : ValueType) (value : List Char) :
    append w type value =
      draftOf type value >>= fun draft =>
        (draft.write w).appended.mapError fun e => .plain e.message := by
  unfold append draftOf
  cases type with
  | integer => cases integerOf Literal.i32 value <;> rfl
  | byte => cases integerOf Literal.u8 value <;> rfl
  | single => cases floatOf Binary.single value <;> rfl
  | azimuth | declination => cases floatOf Binary.double value <;> rfl
  | ipAddress => cases addressOf value <;> rfl
  | wkb => cases bytesOf (String.ofList value) <;> rfl
  | _ => rfl

theorem typeOf_eq_ok_iff {word : String} :
    typeOf word = .ok type ↔ ValueType.ofName? word = some type := by
  unfold typeOf
  cases ValueType.ofName? word <;> simp

/-- A line without a record is left out. -/
theorem line_of_not_isRecord (h : isRecord text = false) (w : RecordWriter) (number : Nat) :
    line w number text = .ok (none, w) := by
  unfold isRecord at h
  unfold line
  generalize Blank.trim text = trimmed at h ⊢
  split at h
  · rfl
  · rfl
  · cases h

/-- A record is appended to those before it. -/
theorem line_of_isRecord (h : isRecord text = true) (w : RecordWriter) (number : Nat) :
    line w number text = (do
      let word := String.ofList (Blank.cut (Blank.trim text)).1
      let type ← (typeOf word).mapError (.within s!"line {number}: unknown type: {word}")
      let (offset, w) ← (append w type (Blank.trim (Blank.cut (Blank.trim text)).2)).mapError
        (.within s!"line {number}")
      return (some s!"{offset}: {type.name}", w)) := by
  unfold line
  split
  · next hblank =>
      rw [isRecord, hblank] at h
      cases h
  · next hmark =>
      rw [isRecord, hmark] at h
      cases h
  · rfl

/-- **When a line is accepted**: there is no record on it, or the writer takes
what it says. -/
theorem line_eq_ok_iff : line w number text = .ok (printed?, after) ↔
    (isRecord text = false ∧ printed? = none ∧ after = w) ∨
      ∃ type value draft offset, said? text = some (type, value) ∧
        draftOf type value = .ok draft ∧ (draft.write w).result = .ok offset ∧
          after = (draft.write w).writer ∧ printed? = some (Row.line ⟨offset, type, value⟩) := by
  cases hrecord : isRecord text with
  | false =>
      rw [line_of_not_isRecord hrecord]
      have hsaid : said? text = none := by
        unfold said?
        rw [hrecord]
        rfl
      simp [hsaid, eq_comm]
  | true =>
      rw [line_of_isRecord hrecord]
      constructor
      · intro h
        right
        obtain ⟨type, htype, hrest⟩ := bind_eq_ok_iff.mp h
        obtain ⟨⟨offset, w'⟩, happend, hrest⟩ := bind_eq_ok_iff.mp hrest
        obtain ⟨rfl, rfl⟩ := Prod.mk.inj (Except.ok.inj hrest)
        rw [mapError_eq_ok_iff, append_eq] at happend
        obtain ⟨draft, hdraft, hwrite⟩ := bind_eq_ok_iff.mp happend
        rw [mapError_eq_ok_iff, typeOf_eq_ok_iff] at htype
        obtain ⟨hoffset, hafter⟩ :=
          WriteOutcome.appended_eq_ok_iff.mp (mapError_eq_ok_iff.mp hwrite)
        refine ⟨type, _, draft, offset, ?_, hdraft, hoffset, hafter.symm, rfl⟩
        rw [said?, if_pos hrecord, htype]
        rfl
      · rintro (⟨hnone, -⟩ | ⟨type, value, draft, offset, hsaid, hdraft, hwrite, rfl, rfl⟩)
        · cases hnone
        · rw [said?, if_pos hrecord] at hsaid
          obtain ⟨type', htype, hsame⟩ := Option.map_eq_some_iff.mp hsaid
          obtain ⟨rfl, rfl⟩ := Prod.mk.inj hsame
          have happend : append w type' (Blank.trim (Blank.cut (Blank.trim text)).2) =
              .ok (offset, (draft.write w).writer) := by
            rw [append_eq]
            exact bind_eq_ok_iff.mpr ⟨draft, hdraft,
              mapError_eq_ok_iff.mpr (WriteOutcome.appended_eq_ok_iff.mpr ⟨hwrite, rfl⟩)⟩
          exact bind_eq_ok_iff.mpr ⟨type', mapError_eq_ok_iff.mpr (typeOf_eq_ok_iff.mpr htype),
            bind_eq_ok_iff.mpr ⟨_, mapError_eq_ok_iff.mpr happend, rfl⟩⟩

end

/-! ## Lines one after another -/

/-- The course of a creation whose lines are all accepted: the writer before
them, the rows of their records, and the writer after them. -/
inductive Accepts : RecordWriter → List (List Char) → List Row → RecordWriter → Prop
  | nil (w : RecordWriter) : Accepts w [] [] w
  | skip {w after : RecordWriter} {text : List Char} {texts : List (List Char)} {rows : List Row}
      (hskip : isRecord text = false) (h : Accepts w texts rows after) :
      Accepts w (text :: texts) rows after
  | record {w after : RecordWriter} {text : List Char} {texts : List (List Char)}
      {rows : List Row} {type : ValueType} {value : List Char} {draft : Draft} {offset : UInt32}
      (hsaid : said? text = some (type, value)) (hdraft : draftOf type value = .ok draft)
      (hwrite : (draft.write w).result = .ok offset)
      (h : Accepts (draft.write w).writer texts rows after) :
      Accepts w (text :: texts) (⟨offset, type, value⟩ :: rows) after

section

variable {w after : RecordWriter} {texts : List (List Char)} {number : Nat}
  {printed : List String} {rows : List Row}

theorem isRecord_of_said? {text : List Char} (h : said? text ≠ none) : isRecord text = true := by
  by_contra hrecord
  exact h (if_neg hrecord)

/-- **Lines are accepted** if each is, and a row is printed for each record. -/
theorem lines_eq_ok_iff : lines w number texts = (printed, .ok after) ↔
    ∃ rows, Accepts w texts rows after ∧ printed = rows.map Row.line := by
  induction texts generalizing w number printed with
  | nil =>
      constructor
      · intro h
        obtain ⟨rfl, hafter⟩ := Prod.mk.inj h
        obtain rfl := Except.ok.inj hafter
        exact ⟨[], .nil w, rfl⟩
      · rintro ⟨rows, haccepts, rfl⟩
        cases haccepts
        rfl
  | cons text texts ih =>
      unfold lines
      constructor
      · intro h
        cases hline : line w number text with
        | error fault =>
            rw [hline] at h
            cases (Prod.mk.inj h).2
        | ok result =>
            obtain ⟨printed?, next⟩ := result
            rw [hline] at h
            rcases hlater : lines next (number + 1) texts with ⟨more, result⟩
            simp only [hlater] at h
            obtain ⟨rfl, rfl⟩ := Prod.mk.inj h
            obtain ⟨rows, haccepts, rfl⟩ := ih.mp hlater
            rcases line_eq_ok_iff.mp hline with
              ⟨hskip, rfl, rfl⟩ | ⟨type, value, draft, offset, hsaid, hdraft, hwrite, rfl, rfl⟩
            · exact ⟨rows, .skip hskip haccepts, rfl⟩
            · exact ⟨_, .record hsaid hdraft hwrite haccepts, rfl⟩
      · rintro ⟨rows, haccepts, rfl⟩
        cases haccepts with
        | skip hskip h =>
            rw [line_of_not_isRecord hskip]
            simp only [ih.mpr ⟨rows, h, rfl⟩]
            rfl
        | record hsaid hdraft hwrite h =>
            rw [line_eq_ok_iff.mpr (.inr ⟨_, _, _, _, hsaid, hdraft, hwrite, rfl, rfl⟩)]
            simp only [ih.mpr ⟨_, h, rfl⟩]
            rfl

/-- **Lines without a record** do not matter. -/
theorem accepts_filter : Accepts w (texts.filter isRecord) rows after ↔
    Accepts w texts rows after := by
  induction texts generalizing w rows with
  | nil => rfl
  | cons text texts ih =>
      cases hrecord : isRecord text with
      | false =>
          rw [List.filter_cons_of_neg (ne_true_of_eq_false hrecord), ih]
          constructor
          · exact .skip hrecord
          · intro h
            cases h with
            | skip _ h => exact h
            | record hsaid _ _ _ =>
                rw [isRecord_of_said? (by rw [hsaid]; exact nofun)] at hrecord
                cases hrecord
      | true =>
          rw [List.filter_cons_of_pos hrecord]
          constructor
          · intro h
            cases h with
            | skip hskip _ =>
                rw [hrecord] at hskip
                cases hskip
            | record hsaid hdraft hwrite h => exact .record hsaid hdraft hwrite (ih.mp h)
          · intro h
            cases h with
            | skip hskip _ =>
                rw [hrecord] at hskip
                cases hskip
            | record hsaid hdraft hwrite h => exact .record hsaid hdraft hwrite (ih.mpr h)

namespace Accepts

/-- There is a row for each record, with what its line said. -/
theorem said (h : Accepts w texts rows after) :
    (texts.filter isRecord).map said? = rows.map fun row => some (row.type, row.value) := by
  induction h with
  | nil w => rfl
  | skip hskip _ ih => rw [List.filter_cons_of_neg (ne_true_of_eq_false hskip), ih]
  | record hsaid _ _ _ ih =>
      rw [List.filter_cons_of_pos (isRecord_of_said? (by rw [hsaid]; exact nofun)), List.map_cons,
        List.map_cons, hsaid, ih]

/-- No line is refused. -/
theorem not_refused (h : Accepts w texts rows after) : ∀ text ∈ texts, ¬ Refused text := by
  induction h with
  | nil w => simp
  | skip hskip _ ih =>
      refine List.forall_mem_cons.mpr ⟨?_, ih⟩
      rintro ⟨hrecord, -⟩
      rw [hskip] at hrecord
      cases hrecord
  | record hsaid hdraft hwrite _ ih =>
      refine List.forall_mem_cons.mpr ⟨?_, ih⟩
      rintro ⟨-, hrefused⟩
      obtain ⟨record, hrecord, -⟩ := Draft.write_eq_ok hwrite
      exact hrefused _ _ _ hsaid hdraft ((Draft.record_isOk_iff _).mp ⟨record, hrecord⟩)

end Accepts

end

end RecordStore.Shell.Creation
