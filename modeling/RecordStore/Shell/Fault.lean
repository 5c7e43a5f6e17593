import RecordStore.Numeric.Literal
import RecordStore.RecordWriter
import RecordStore.Shell.Directory
import RecordStore.StoreError
import RecordStore.Text.Hex

/-!
# Faults shown to whoever runs a command

A fault is a text, and the text of what lies behind it.  A command that is
run by itself shows both; one typed in a session shows the first only.
-/

namespace RecordStore.Shell

/-- Why a command failed, in words. -/
structure Fault where
  message : String
  /-- What lies behind it. -/
  cause? : Option String
  deriving DecidableEq, Repr

namespace Fault

/-- A fault with nothing behind it. -/
def plain (message : String) : Fault :=
  ⟨message, none⟩

/-- The fault of an error of the store. -/
def ofStore (e : StoreError) : Fault :=
  ⟨e.message, e.cause?⟩

/-- A fault behind a text that says where it arose. -/
def within (place : String) (fault : Fault) : Fault :=
  ⟨place, some fault.message⟩

/-- A fault as shown when it ends a run. -/
def report (fault : Fault) : String :=
  "Error: " ++ fault.message ++ "\n" ++
    (match fault.cause? with
      | some cause => "\nCaused by:\n    " ++ cause ++ "\n"
      | none => "")

/-- A fault of a path. -/
def ofPath (fault : PathFault) : Fault :=
  plain fault.message

/-- The wording for a word that names nothing. -/
def noMatch : Fault :=
  plain "Matching variant not found"

end Fault

/-- The integer of a range that a word denotes. -/
def integerOf (range : Literal.Range) (word : List Char) : Except Fault Int :=
  (Literal.integer range word).mapError fun fault => .plain fault.message

/-- The number of a format that a word denotes. -/
def floatOf (f : Binary.Format) (word : List Char) : Except Fault Binary.Datum :=
  (Literal.float f word).mapError fun fault => .plain fault.message

/-- The address that a word denotes. -/
def addressOf (word : List Char) : Except Fault IpAddress :=
  match IpAddress.ofText? word with
  | some address => .ok address
  | none => .error (.plain "invalid IP address syntax")

/-- The bytes that a word in hexadecimal stands for. -/
def bytesOf (word : String) : Except Fault Bytes :=
  (Hex.decode (Utf8.encode word)).mapError fun fault => .plain fault.message

/-- The type that a word names. -/
def typeOf (word : String) : Except Fault ValueType :=
  match ValueType.ofName? word with
  | some type => .ok type
  | none => .error .noMatch

end RecordStore.Shell
