import RecordStore.Shell.Command

/-!
# Commands typed in a session

A line is cut into words at its blanks.  The first names the command, in any
case of letters; the others are what the command is given.  A text to
compare with is put together again from its words, with one space between
them.
-/

namespace RecordStore.Shell

/-- The names of commands. -/
inductive Verb
  | compare
  | get
  | help
  | info
  | records
  | wkt
  deriving DecidableEq, Repr

/-- The command that a word names. -/
def Verb.ofWord? (word : String) : Option Verb :=
  match word.map Char.toLower with
  | "compare" => some .compare
  | "get" => some .get
  | "help" => some .help
  | "info" => some .info
  | "records" => some .records
  | "wkt" => some .wkt
  | _ => none

/-- The offset that a word denotes. -/
def offsetOf (word : String) : Except Fault UInt32 :=
  (fun n => UInt32.ofNat n.toNat) <$> integerOf Literal.u32 word.toList

/-- The number of decimal places that a word denotes. -/
def placesOf (word : String) : Except Fault Nat :=
  Int.toNat <$> integerOf Literal.u8 word.toList

namespace Command

/-- The command of a verb and what it is given.  Whatever more is given to a
command that needs nothing is ignored. -/
def ofVerb (verb : Verb) (given : List String) : Except Fault Command :=
  match verb, given with
  | .compare, offset :: type :: target => do
    return .compare (← offsetOf offset) (← typeOf type) (" ".intercalate target)
  | .compare, _ => .error (.plain "usage: compare <offset> <type> <text>")
  | .get, [offset, type] => do return .get (← offsetOf offset) (← typeOf type) none
  | .get, [offset, type, places] => do
    return .get (← offsetOf offset) (← typeOf type) (some (← placesOf places))
  | .get, _ => .error (.plain "usage: get <offset> <type> [<places>]")
  | .records, [type] => do return .records (← typeOf type)
  | .records, _ => .error (.plain "usage: records <type>")
  | .wkt, [hex] => .ok (.wkt hex none)
  | .wkt, [hex, places] => do return .wkt hex (some (← placesOf places))
  | .wkt, _ => .error (.plain "usage: wkt <hex> [<places>]")
  | .help, _ => .ok .help
  | .info, _ => .ok .info

/-- The command that words make up; none for no words. -/
def ofWords : List String → Except Fault (Option Command)
  | [] => .ok none
  | first :: given =>
    match Verb.ofWord? first with
    | some verb => some <$> ofVerb verb given
    | none => .error .noMatch

/-- The command on a line; none for a blank line. -/
def ofLine (line : String) : Except Fault (Option Command) :=
  ofWords ((Blank.words line.toList).map String.ofList)

end Command

end RecordStore.Shell
