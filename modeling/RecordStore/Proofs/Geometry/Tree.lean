import Mathlib
import RecordStore.Proofs.Numeric.Places
import RecordStore.Proofs.Words

/-!
# Geometries as trees

What a geometry is, apart from any encoding: a `Tree`, each node of which has
a coordinate mode of its own.  A tree has many binary forms
(`Tree.EncodedAs`), since every node chooses the order of its bytes, and one
text (`Tree.text`).  The codes, names and tags of both are spelled out here, and
the numbers of a position are written as `FixedPoint.numeral` says.

Two measures decide which trees can be rendered: `Tree.depth`, and
`Tree.Proper`, which says that members are of the kind their group is made of.
-/

namespace RecordStore.Geometry

/-- How many numbers a position has. -/
def Mode.arity : Mode → Nat
  | .xy => 2
  | .xyz => 3
  | .xym => 3
  | .xyzm => 4

/-- The numbers of a position, as the bits of doubles. -/
structure Position (mode : Mode) where
  numbers : List UInt64
  length_numbers : numbers.length = mode.arity

/-- The kinds that are made of rings. -/
inductive RingKind
  | polygon
  | triangle
  deriving DecidableEq, Repr

/-- The kinds that are made of geometries. -/
inductive GroupKind
  | multiPoint
  | multiLineString
  | multiPolygon
  | polyhedralSurface
  | tin
  | geometryCollection
  deriving DecidableEq, Repr

/-- A kind made of rings, as a kind. -/
def RingKind.kind : RingKind → Kind
  | .polygon => .polygon
  | .triangle => .triangle

/-- A kind made of geometries, as a kind. -/
def GroupKind.kind : GroupKind → Kind
  | .multiPoint => .multiPoint
  | .multiLineString => .multiLineString
  | .multiPolygon => .multiPolygon
  | .polyhedralSurface => .polyhedralSurface
  | .tin => .tin
  | .geometryCollection => .geometryCollection

/-- The kind that members have to be of; none for a collection, which takes
any. -/
def GroupKind.member? : GroupKind → Option Kind
  | .multiPoint => some .point
  | .multiLineString => some .lineString
  | .multiPolygon => some .polygon
  | .polyhedralSurface => some .polygon
  | .tin => some .polygon
  | .geometryCollection => none

/-- A geometry. -/
inductive Tree
  /-- A geometry of which no more is said than that it is one. -/
  | abstract (mode : Mode)
  | point (mode : Mode) (position : Position mode)
  | lineString (mode : Mode) (positions : List (Position mode))
  | ringed (kind : RingKind) (mode : Mode) (rings : List (List (Position mode)))
  | group (kind : GroupKind) (mode : Mode) (members : List Tree)

namespace Tree

/-- The kind of the outermost geometry. -/
def kind : Tree → Kind
  | .abstract _ => .geometry
  | .point _ _ => .point
  | .lineString _ _ => .lineString
  | .ringed kind _ _ => kind.kind
  | .group kind _ _ => kind.kind

/-- The coordinate mode of the outermost geometry. -/
def mode : Tree → Mode
  | .abstract mode => mode
  | .point mode _ => mode
  | .lineString mode _ => mode
  | .ringed _ mode _ => mode
  | .group _ mode _ => mode

mutual
/-- How many geometries are inside each other at the deepest place. -/
def depth : Tree → Nat
  | .group _ _ members => depthAll members + 1
  | _ => 1

/-- The greatest depth of some geometries. -/
def depthAll : List Tree → Nat
  | [] => 0
  | t :: rest => max t.depth (depthAll rest)
end

mutual
/-- Every member, at any depth, is of the kind its group asks for. -/
def Proper : Tree → Prop
  | .group kind _ members =>
    (∀ t ∈ members, ∀ required ∈ kind.member?, t.kind = required) ∧ AllProper members
  | _ => True

/-- All of some geometries are proper. -/
def AllProper : List Tree → Prop
  | [] => True
  | t :: rest => t.Proper ∧ AllProper rest
end

theorem depthAll_le_iff {members : List Tree} {d : Nat} :
    depthAll members ≤ d ↔ ∀ t ∈ members, t.depth ≤ d := by
  induction members with
  | nil => simp [depthAll]
  | cons t rest ih => simp [depthAll, ih]

theorem allProper_iff {members : List Tree} :
    AllProper members ↔ ∀ t ∈ members, t.Proper := by
  induction members with
  | nil => simp [AllProper]
  | cons t rest ih => simp [AllProper, ih]

theorem depth_pos (t : Tree) : 0 < t.depth := by
  cases t <;> simp [depth]

theorem eq_abstract_of_kind {t : Tree} (h : t.kind = .geometry) : ∃ mode, t = .abstract mode := by
  cases t with
  | abstract mode => exact ⟨mode, rfl⟩
  | ringed kind => cases kind <;> cases h
  | group kind => cases kind <;> cases h
  | _ => cases h

theorem eq_point_of_kind {t : Tree} (h : t.kind = .point) :
    ∃ mode position, t = .point mode position := by
  cases t with
  | point mode position => exact ⟨mode, position, rfl⟩
  | ringed kind => cases kind <;> cases h
  | group kind => cases kind <;> cases h
  | _ => cases h

theorem eq_lineString_of_kind {t : Tree} (h : t.kind = .lineString) :
    ∃ mode positions, t = .lineString mode positions := by
  cases t with
  | lineString mode positions => exact ⟨mode, positions, rfl⟩
  | ringed kind => cases kind <;> cases h
  | group kind => cases kind <;> cases h
  | _ => cases h

theorem eq_ringed_of_kind {r : RingKind} {t : Tree} (h : t.kind = r.kind) :
    ∃ mode rings, t = .ringed r mode rings := by
  cases t with
  | ringed kind mode rings =>
      have hsame : kind = r := by cases kind <;> cases r <;> first | rfl | cases h
      exact ⟨mode, rings, by rw [hsame]⟩
  | group kind => cases kind <;> cases r <;> cases h
  | _ => cases r <;> cases h

theorem eq_group_of_kind {g : GroupKind} {t : Tree} (h : t.kind = g.kind) :
    ∃ mode members, t = .group g mode members := by
  cases t with
  | group kind mode members =>
      have hsame : kind = g := by cases kind <;> cases g <;> first | rfl | cases h
      exact ⟨mode, members, by rw [hsame]⟩
  | ringed kind => cases kind <;> cases g <;> cases h
  | _ => cases g <;> cases h

/-- No geometry is of a kind without a text form. -/
theorem content_kind_ne_reserved (t : Tree) : t.kind.content ≠ .reserved := by
  cases t with
  | ringed kind => cases kind <;> simp [kind, RingKind.kind, Kind.content]
  | group kind => cases kind <;> simp [kind, GroupKind.kind, Kind.content]
  | _ => simp [kind, Kind.content]

end Tree

/-! ## Binary forms -/

/-- What a mode adds to the type code of a geometry. -/
def Mode.thousands : Mode → Nat
  | .xy => 0
  | .xyz => 1000
  | .xym => 2000
  | .xyzm => 3000

/-- The type code of a geometry without its mode. -/
def Tree.code : Tree → Nat
  | .abstract _ => 0
  | .point _ _ => 1
  | .lineString _ _ => 2
  | .ringed .polygon _ _ => 3
  | .ringed .triangle _ _ => 17
  | .group .multiPoint _ _ => 4
  | .group .multiLineString _ _ => 5
  | .group .multiPolygon _ _ => 6
  | .group .polyhedralSurface _ _ => 15
  | .group .tin _ _ => 16
  | .group .geometryCollection _ _ => 7

/-- What a geometry starts with: the order of its bytes and its type code. -/
def Tree.header (order : ByteOrder) (t : Tree) : Bytes :=
  order.flag :: order.bytes 4 (t.mode.thousands + t.code)

/-- A counted list of parts. -/
def ByteOrder.counted (order : ByteOrder) (parts : List Bytes) : Bytes :=
  order.bytes 4 parts.length ++ parts.flatten

/-- The bytes of a number of a position. -/
def ByteOrder.coordinate (order : ByteOrder) (number : UInt64) : Bytes :=
  order.bytes 8 number.toNat

/-- The bytes of a position. -/
def Position.bytes {mode : Mode} (order : ByteOrder) (position : Position mode) : Bytes :=
  (position.numbers.map order.coordinate).flatten

/-- The most parts that a count can say, and one more. -/
def countLimit : Nat := 2 ^ 32

mutual
/-- Bytes are a binary form of a geometry: a header in some order, and what
the geometry is made of in the same order. -/
inductive Tree.EncodedAs : Tree → Bytes → Prop
  | intro (order : ByteOrder) {t : Tree} {body : Bytes} (h : Tree.Contents order t body) :
      Tree.EncodedAs t (t.header order ++ body)

/-- Bytes hold what a geometry is made of.  Members start over with a header
of their own. -/
inductive Tree.Contents : ByteOrder → Tree → Bytes → Prop
  | abstract {order : ByteOrder} {mode : Mode} : Tree.Contents order (.abstract mode) []
  | point {order : ByteOrder} {mode : Mode} {position : Position mode} :
      Tree.Contents order (.point mode position) (position.bytes order)
  | lineString {order : ByteOrder} {mode : Mode} {positions : List (Position mode)}
      (few : positions.length < countLimit) :
      Tree.Contents order (.lineString mode positions)
        (order.counted (positions.map (Position.bytes order)))
  | ringed {order : ByteOrder} {kind : RingKind} {mode : Mode}
      {rings : List (List (Position mode))} (few : rings.length < countLimit)
      (short : ∀ ring ∈ rings, ring.length < countLimit) :
      Tree.Contents order (.ringed kind mode rings)
        (order.counted (rings.map fun ring => order.counted (ring.map (Position.bytes order))))
  | group {order : ByteOrder} {kind : GroupKind} {mode : Mode} {members : List Tree}
      {parts : List Bytes} (few : members.length < countLimit)
      (h : List.Forall₂ Tree.EncodedAs members parts) :
      Tree.Contents order (.group kind mode members) (order.counted parts)
end

/-! ## Text -/

/-- The bytes of an ASCII word. -/
def spell (word : String) : Bytes :=
  word.toList.map fun c => UInt8.ofNat c.toNat

/-- Items in parentheses, with commas between them. -/
def enclosed (items : List Bytes) : Bytes :=
  spell "(" ++ (spell ",").intercalate items ++ spell ")"

/-- Items in parentheses; if there are none, a word that says so, set off from
a name before it. -/
def listed (afterName : Bool) : List Bytes → Bytes
  | [] => (if afterName then spell " " else []) ++ spell "EMPTY"
  | items => enclosed items

/-- The text of a number of a position, with no more than 15 decimal places. -/
def coordinateText (places : Nat) (number : UInt64) : Bytes :=
  match Binary.double.ofBits number.toNat with
  | .nan _ => spell "NaN"
  | .infinite negative => spell (if negative then "-inf" else "inf")
  | .finite negative units => (FixedPoint.numeral (min places 15) negative units).text

/-- What the mode of a geometry adds to its name. -/
def Mode.suffix : Mode → String
  | .xy => ""
  | .xyz => " Z"
  | .xym => " M"
  | .xyzm => " ZM"

/-- The text of a position. -/
def Position.text {mode : Mode} (places : Nat) (position : Position mode) : Bytes :=
  (spell " ").intercalate (position.numbers.map (coordinateText places))

namespace Tree

/-- The name of a geometry. -/
def name : Tree → String
  | .abstract _ => "GEOMETRY"
  | .point _ _ => "POINT"
  | .lineString _ _ => "LINESTRING"
  | .ringed .polygon _ _ => "POLYGON"
  | .ringed .triangle _ _ => "TRIANGLE"
  | .group .multiPoint _ _ => "MULTIPOINT"
  | .group .multiLineString _ _ => "MULTILINESTRING"
  | .group .multiPolygon _ _ => "MULTIPOLYGON"
  | .group .polyhedralSurface _ _ => "POLYHEDRALSURFACE"
  | .group .tin _ _ => "TIN"
  | .group .geometryCollection _ _ => "GEOMETRYCOLLECTION"

/-- The name of a geometry and the tag of its mode. -/
def title (t : Tree) : Bytes :=
  spell t.name ++ spell t.mode.suffix

/-- The name of a geometry and the tag of its mode, if they are to be written. -/
def heading (named : Bool) (t : Tree) : Bytes :=
  if named then t.title else []

mutual
/-- The text of what a geometry is made of; `named` says whether the name of
the geometry is just before it. -/
def contentText (places : Nat) (named : Bool) : Tree → Bytes
  | .abstract _ => enclosed [spell "EMPTY"]
  | .point _ position => enclosed [position.text places]
  | .lineString _ positions => listed named (positions.map (Position.text places))
  | .ringed _ _ rings =>
    listed named (rings.map fun ring => listed false (ring.map (Position.text places)))
  | .group kind _ members => listed named (memberTexts places kind.member?.isNone members)

/-- The texts of members, named where their group takes any kind. -/
def memberTexts (places : Nat) (named : Bool) : List Tree → List Bytes
  | [] => []
  | t :: rest => (t.heading named ++ t.contentText places named) :: memberTexts places named rest
end

/-- The text of a geometry. -/
def text (places : Nat) (named : Bool) (t : Tree) : Bytes :=
  t.heading named ++ t.contentText places named

theorem memberTexts_eq_map (places : Nat) (named : Bool) (members : List Tree) :
    memberTexts places named members = members.map (text places named) := by
  induction members with
  | nil => rfl
  | cons t rest ih => simp [memberTexts, text, ih]

end Tree

end RecordStore.Geometry
