import RecordStore.Numeric.Binary
import RecordStore.Numeric.Leading

/-!
# Numbers written out

A text that must be a number as a whole, for integers of a given range and
for floating point numbers.  An integer is read from the left: at each
character, one that is no digit is reported before a value that has left the
range.
-/

namespace RecordStore.Literal

/-- Why a text is no number of the kind asked for. -/
inductive Fault
  /-- No text where an integer should be. -/
  | noInteger
  /-- A character that is no digit, or no digit at all. -/
  | badDigit
  /-- A value above the range. -/
  | tooLarge
  /-- A value below the range. -/
  | tooSmall
  /-- No text where a floating point number should be. -/
  | noFloat
  /-- A text that has not the form of a floating point number. -/
  | badFloat
  deriving DecidableEq, Repr

/-- The wording of a fault. -/
def Fault.message : Fault → String
  | .noInteger => "cannot parse integer from empty string"
  | .badDigit => "invalid digit found in string"
  | .tooLarge => "number too large to fit in target type"
  | .tooSmall => "number too small to fit in target type"
  | .noFloat => "cannot parse float from empty string"
  | .badFloat => "invalid float literal"

/-- The range of a kind of integer. -/
structure Range where
  low : Int
  high : Int
  deriving DecidableEq, Repr

/-- Integers of 8 bits without a sign. -/
def u8 : Range := ⟨0, 255⟩

/-- Integers of 16 bits without a sign. -/
def u16 : Range := ⟨0, 65535⟩

/-- Integers of 32 bits without a sign. -/
def u32 : Range := ⟨0, 4294967295⟩

/-- Integers of 32 bits. -/
def i32 : Range := ⟨-2147483648, 2147483647⟩

/-- Integers of 64 bits. -/
def i64 : Range := ⟨-9223372036854775808, 9223372036854775807⟩

/-- Is an integer in a range? -/
def Range.contains (range : Range) (value : Int) : Bool :=
  range.low ≤ value && value ≤ range.high

/-- The value of a decimal digit. -/
def digit? (c : Char) : Option Nat :=
  if c.isDigit then some (c.toNat - 48) else none

/-- Goes on reading digits after those that denote `value`. -/
def digitsFrom (range : Range) (negative : Bool) (value : Int) : List Char → Except Fault Int
  | [] => .ok value
  | c :: rest =>
    match digit? c with
    | none => .error .badDigit
    | some d =>
      let next := if negative then value * 10 - d else value * 10 + d
      if next < range.low then .error .tooSmall
      else if range.high < next then .error .tooLarge
      else digitsFrom range negative next rest

/-- The integer of a range that a text denotes: digits, with an optional plus,
or an optional minus where the range has numbers below zero. -/
def integer (range : Range) : List Char → Except Fault Int
  | [] => .error .noInteger
  | ['+'] => .error .badDigit
  | ['-'] => .error .badDigit
  | '+' :: rest => digitsFrom range false 0 rest
  | '-' :: rest =>
    if range.low < 0 then digitsFrom range true 0 rest else .error .badDigit
  | text => digitsFrom range false 0 text

/-- The number that digits denote. -/
def natural (digits : List Char) : Nat :=
  digits.foldl (fun n c => 10 * n + (c.toNat - 48)) 0

/-- The integer that a text of the form `[+-]?[0-9]+` denotes. -/
def signed (text : List Char) : Int :=
  match Leading.sign text with
  | (['-'], digits) => -(natural digits : Int)
  | (_, digits) => natural digits

/-- The number of a format nearest to what a text of decimal form denotes. -/
def decimal (f : Binary.Format) (text : List Char) : Binary.Datum :=
  let (sign, rest) := Leading.sign text
  let (whole, rest) := Leading.digits rest
  let (part, rest) := Leading.fraction whole rest
  let places := part.drop 1
  f.ofDecimal (sign = ['-']) (natural (whole ++ places)) (signed (rest.drop 1) - places.length)

/-- The value that a word other than a number denotes. -/
def special? (text : List Char) : Option (Bool → Binary.Datum) :=
  match String.ofList (text.map Char.toLower) with
  | "inf" | "infinity" => some .infinite
  | "nan" => some .nan
  | _ => none

/-- The number of a format nearest to what a text denotes: a decimal number,
or an infinity or no number by name, in any case of letters and with an
optional sign. -/
def float (f : Binary.Format) (text : List Char) : Except Fault Binary.Datum :=
  if text = [] then .error .noFloat
  else if Leading.decimal text = text then .ok (decimal f text)
  else
    let (sign, word) := Leading.sign text
    match special? word with
    | some value => .ok (value (sign = ['-']))
    | none => .error .badFloat

end RecordStore.Literal
