import RecordStore.RecordWriter
import RecordStore.Shell.Fault
import RecordStore.Text.Blank

/-!
# Creating a store from text

Each line of the text is a type and a value, parted by a blank; lines that
are blank or begin with `#` are left out.  The offset of every record is
printed as it is written.  A line that cannot be stored ends the creation,
and the store is written only after the last line.
-/

namespace RecordStore.Shell

namespace Creation

/-- Appends a value of a type, given as text. -/
def append (w : RecordWriter) (type : ValueType) (value : List Char) :
    Except Fault (UInt32 × RecordWriter) := do
  let written ←
    match type with
    | .string | .double | .boolean | .javascript => pure (w.string (String.ofList value))
    | .integer => do pure (w.integer (Int32.ofInt (← integerOf Literal.i32 value)))
    | .single => do
      let value ← floatOf Binary.single value
      pure (w.single (UInt32.ofNat (Binary.single.toBits value)))
    | .byte => do pure (w.byte (UInt8.ofNat (← integerOf Literal.u8 value).toNat))
    | .azimuth => do pure (w.azimuth (← floatOf Binary.double value))
    | .declination => do pure (w.declination (← floatOf Binary.double value))
    | .ipAddress => do pure (w.ipAddress (← addressOf value))
    | .wkb => do pure (w.byteArray (← bytesOf (String.ofList value)))
    | .coordinate | .object => throw (.plain s!"{type.name} values can't be stored")
  written.appended.mapError fun e => .plain e.message

/-- Appends the record of a line, and yields what is printed for it; none for a
line that is left out. -/
def line (w : RecordWriter) (number : Nat) (text : List Char) :
    Except Fault (Option String × RecordWriter) :=
  match Blank.trim text with
  | [] => .ok (none, w)
  | '#' :: _ => .ok (none, w)
  | text => do
    let (word, value) := Blank.cut text
    let word := String.ofList word
    let type ← (typeOf word).mapError (.within s!"line {number}: unknown type: {word}")
    let (offset, w) ← (append w type (Blank.trim value)).mapError (.within s!"line {number}")
    return (some s!"{offset}: {type.name}", w)

/-- Appends the records of lines numbered from `number` on, and yields what is
printed for them, also if one of them fails. -/
def lines (w : RecordWriter) (number : Nat) :
    List (List Char) → List String × Except Fault RecordWriter
  | [] => ([], .ok w)
  | text :: rest =>
    match line w number text with
    | .error fault => ([], .error fault)
    | .ok (printed, w) =>
      let (more, result) := lines w (number + 1) rest
      (printed.toList ++ more, result)

/-- The lines of a text, cut at its line feeds. -/
def linesOf (text : List Char) : List (List Char) :=
  match text with
  | [] => []
  | c :: rest =>
    if c = '\n' then [] :: linesOf rest
    else
      match linesOf rest with
      | [] => [[c]]
      | first :: more => (c :: first) :: more

/-- The text in a file. -/
def textOf (directory : Directory) (path : String) : Except Fault (List Char) :=
  match directory.read path with
  | .error fault => .error (.ofPath fault)
  | .ok bytes =>
    match Utf8.decode? bytes with
    | some text => .ok text
    | none => .error (.plain "stream did not contain valid UTF-8")

/-- Creates a store from a text, and yields what is printed, also if the
creation fails. -/
def run (directory : Directory) (store source : String) : List String × Except Fault Directory :=
  match (textOf directory source).mapError (.within s!"reading source: {source}") with
  | .error fault => ([], .error fault)
  | .ok text =>
    let (printed, result) := lines .empty 1 (linesOf text)
    let written := do
      let w ← result
      let contents ← w.finishWithLength.mapError fun e => .plain e.message
      (directory.write store contents).mapError .ofPath
    (printed, written)

end Creation

end RecordStore.Shell
