/-!
# Types of stored values

Stored bytes do not say what they are: the reader of a record supplies its
type.  A type has a numeric code, under which data files refer to it, and
names, under which people do.  Names are recognised in any mixture of ASCII
upper and lower case.
-/

namespace RecordStore

/-- What the bytes of a record are to be read as. -/
inductive ValueType
  /-- Text. -/
  | string
  /-- A 32 bit integer. -/
  | integer
  /-- A double, stored as text. -/
  | double
  /-- A boolean, stored as text. -/
  | boolean
  /-- JavaScript source, stored as text. -/
  | javascript
  /-- A single precision float. -/
  | single
  /-- One byte. -/
  | byte
  /-- A coordinate; never stored as a single value. -/
  | coordinate
  /-- An IPv4 or IPv6 address. -/
  | ipAddress
  /-- A Well-Known-Binary geometry. -/
  | wkb
  /-- An object; never stored as a single value. -/
  | object
  /-- A declination, in compressed degrees. -/
  | declination
  /-- An azimuth, in compressed degrees. -/
  | azimuth
  deriving DecidableEq, Repr, Inhabited

namespace ValueType

/-- Every type, each at the place its code gives. -/
def all : List ValueType :=
  [.string, .integer, .double, .boolean, .javascript, .single, .byte, .coordinate, .ipAddress,
    .wkb, .object, .declination, .azimuth]

/-- The numeric code of a type. -/
def code : ValueType → Nat
  | .string => 0
  | .integer => 1
  | .double => 2
  | .boolean => 3
  | .javascript => 4
  | .single => 5
  | .byte => 6
  | .coordinate => 7
  | .ipAddress => 8
  | .wkb => 9
  | .object => 10
  | .declination => 11
  | .azimuth => 12

/-- The type of a numeric code. -/
def ofCode? (code : Nat) : Option ValueType :=
  all[code]?

/-- The name a type is shown under. -/
def name : ValueType → String
  | .string => "string"
  | .integer => "integer"
  | .double => "double"
  | .boolean => "boolean"
  | .javascript => "javascript"
  | .single => "float"
  | .byte => "byte"
  | .coordinate => "coordinate"
  | .ipAddress => "ip"
  | .wkb => "wkb"
  | .object => "object"
  | .declination => "declination"
  | .azimuth => "azimuth"

/-- Every name a type is recognised by. -/
def names : ValueType → List String
  | .integer => ["integer", "int"]
  | .boolean => ["boolean", "bool"]
  | .ipAddress => ["ip", "ipaddress"]
  | type => [type.name]

/-- The type known by a name, whatever the case of its ASCII letters. -/
def ofName? (text : String) : Option ValueType :=
  all.find? fun type => type.names.contains (text.map Char.toLower)

/-- A code leads back to the type it is the code of. -/
theorem ofCode?_code (type : ValueType) : ofCode? type.code = some type := by
  cases type <;> rfl

end ValueType

end RecordStore
