import RecordStore.Bytes

/-!
# Hexadecimal text

Bytes written as two hexadecimal digits each, in either case.  An odd number
of digits is reported before any character that is no digit; that character
is reported with its place, counted in bytes.
-/

namespace RecordStore.Hex

/-- Why a text is not bytes in hexadecimal. -/
inductive Fault
  /-- The last digit has no partner. -/
  | oddLength
  /-- A byte of the text that is no digit. -/
  | badDigit (byte : UInt8) (position : Nat)
  deriving DecidableEq, Repr

/-- The characters of one byte that are shown as themselves. -/
def printable (c : Char) : Bool :=
  (0x20 ≤ c.toNat && c.toNat < 0x7F) || (0xA1 ≤ c.toNat && c.toNat != 0xAD)

/-- A character of one byte between quotes: as itself, behind a backslash, or
by its code. -/
def quoted (c : Char) : String :=
  match c with
  | '\x00' => "'\\0'"
  | '\t' => "'\\t'"
  | '\n' => "'\\n'"
  | '\r' => "'\\r'"
  | '\'' => "'\\''"
  | '\\' => "'\\\\'"
  | c => if printable c then "'" ++ String.singleton c ++ "'"
    else "'\\u\x7b" ++ String.ofList (Nat.toDigits 16 c.toNat) ++ "\x7d'"

/-- The wording of a fault.  The offending byte stands for the character with
its code. -/
def Fault.message : Fault → String
  | .oddLength => "Odd number of digits"
  | .badDigit byte position =>
    "Invalid character " ++ quoted (Char.ofNat byte.toNat) ++ s!" at position {position}"

/-- The value of a hexadecimal digit. -/
def digit? (byte : UInt8) : Option Nat :=
  let n := byte.toNat
  if 48 ≤ n ∧ n ≤ 57 then some (n - 48)
  else if 65 ≤ n ∧ n ≤ 70 then some (n - 55)
  else if 97 ≤ n ∧ n ≤ 102 then some (n - 87)
  else none

/-- The bytes that pairs of digits stand for. -/
def pairs (position : Nat) : Bytes → Except Fault Bytes
  | high :: low :: rest =>
    match digit? high, digit? low with
    | none, _ => .error (.badDigit high position)
    | some _, none => .error (.badDigit low (position + 1))
    | some h, some l => (pairs (position + 2) rest).map (UInt8.ofNat (16 * h + l) :: ·)
  | [_] => .error .oddLength
  | [] => .ok []

/-- The bytes that a text in hexadecimal stands for. -/
def decode (text : Bytes) : Except Fault Bytes :=
  if text.length % 2 = 1 then .error .oddLength else pairs 0 text

/-- Bytes as hexadecimal digits, two each and in lower case. -/
def encode (bytes : Bytes) : String :=
  String.ofList (bytes.flatMap fun b => [Nat.digitChar (b.toNat / 16), Nat.digitChar (b.toNat % 16)])

end RecordStore.Hex
