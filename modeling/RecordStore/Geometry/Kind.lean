/-!
# Kinds of geometry

A geometry's type code is `1000 * dimensions + kind`.  The kind says what
the geometry is made of — positions, rings, member geometries — and the
dimensions digit says how many numbers a position has and which tag the
text form carries.

Seven kinds have codes but no text form; they are `Content.reserved`.
-/

namespace RecordStore.Geometry

/-- The kinds of geometry that have a code. -/
inductive Kind
  | geometry
  | point
  | lineString
  | polygon
  | multiPoint
  | multiLineString
  | multiPolygon
  | geometryCollection
  | circularString
  | compoundCurve
  | curvePolygon
  | multiCurve
  | multiSurface
  | curve
  | surface
  | polyhedralSurface
  | tin
  | triangle
  deriving DecidableEq, Repr, Inhabited

/-- What a geometry is made of. -/
inductive Content
  /-- Nothing: an abstract geometry. -/
  | nothing
  /-- One position. -/
  | position
  /-- A counted list of positions. -/
  | positions
  /-- A counted list of rings, each a counted list of positions. -/
  | rings
  /-- A counted list of geometries of one kind. -/
  | members (kind : Kind)
  /-- A counted list of geometries of any kind. -/
  | collection
  /-- Nothing that has a text form. -/
  | reserved
  deriving DecidableEq, Repr

namespace Kind

/-- Every kind, each at the place its code gives. -/
def all : List Kind :=
  [.geometry, .point, .lineString, .polygon, .multiPoint, .multiLineString, .multiPolygon,
    .geometryCollection, .circularString, .compoundCurve, .curvePolygon, .multiCurve,
    .multiSurface, .curve, .surface, .polyhedralSurface, .tin, .triangle]

/-- The kind of a code, dimensions left out. -/
def ofCode? (code : Nat) : Option Kind :=
  all[code]?

/-- The code of a kind, dimensions left out. -/
def code : Kind → Nat
  | .geometry => 0
  | .point => 1
  | .lineString => 2
  | .polygon => 3
  | .multiPoint => 4
  | .multiLineString => 5
  | .multiPolygon => 6
  | .geometryCollection => 7
  | .circularString => 8
  | .compoundCurve => 9
  | .curvePolygon => 10
  | .multiCurve => 11
  | .multiSurface => 12
  | .curve => 13
  | .surface => 14
  | .polyhedralSurface => 15
  | .tin => 16
  | .triangle => 17

/-- The name a geometry of this kind is written under. -/
def name : Kind → String
  | .geometry => "GEOMETRY"
  | .point => "POINT"
  | .lineString => "LINESTRING"
  | .polygon => "POLYGON"
  | .multiPoint => "MULTIPOINT"
  | .multiLineString => "MULTILINESTRING"
  | .multiPolygon => "MULTIPOLYGON"
  | .geometryCollection => "GEOMETRYCOLLECTION"
  | .circularString => "CIRCULARSTRING"
  | .compoundCurve => "COMPOUNDCURVE"
  | .curvePolygon => "CURVEPOLYGON"
  | .multiCurve => "MULTICURVE"
  | .multiSurface => "MULTISURFACE"
  | .curve => "CURVE"
  | .surface => "SURFACE"
  | .polyhedralSurface => "POLYHEDRALSURFACE"
  | .tin => "TIN"
  | .triangle => "TRIANGLE"

/-- What a geometry of this kind is made of. -/
def content : Kind → Content
  | .geometry => .nothing
  | .point => .position
  | .lineString => .positions
  | .polygon => .rings
  | .multiPoint => .members .point
  | .multiLineString => .members .lineString
  | .multiPolygon => .members .polygon
  | .geometryCollection => .collection
  | .polyhedralSurface => .members .polygon
  | .tin => .members .polygon
  | .triangle => .rings
  | .circularString | .compoundCurve | .curvePolygon | .multiCurve | .multiSurface | .curve
  | .surface => .reserved

/-- A code leads back to the kind it is the code of. -/
theorem ofCode?_code (kind : Kind) : ofCode? kind.code = some kind := by
  cases kind <;> rfl

end Kind

/-- How many numbers a position has, and what they stand for. -/
inductive Mode
  | xy
  | xyz
  | xym
  | xyzm
  deriving DecidableEq, Repr, Inhabited

namespace Mode

/-- Every mode, each at the place its digit gives. -/
def all : List Mode :=
  [.xy, .xyz, .xym, .xyzm]

/-- The mode of the thousands of a type code. -/
def ofDigit? (digit : Nat) : Option Mode :=
  all[digit]?

/-- The thousands of a type code. -/
def digit : Mode → Nat
  | .xy => 0
  | .xyz => 1
  | .xym => 2
  | .xyzm => 3

/-- How many numbers a position has. -/
def dimensions : Mode → Nat
  | .xy => 2
  | .xyz => 3
  | .xym => 3
  | .xyzm => 4

/-- What follows the name of a geometry in text. -/
def tag? : Mode → Option String
  | .xy => none
  | .xyz => some "Z"
  | .xym => some "M"
  | .xyzm => some "ZM"

/-- A digit leads back to the mode it is the digit of. -/
theorem ofDigit?_digit (mode : Mode) : ofDigit? mode.digit = some mode := by
  cases mode <;> rfl

end Mode

end RecordStore.Geometry
