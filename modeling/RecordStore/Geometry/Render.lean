import RecordStore.Geometry.Scan

/-!
# From Well-Known-Binary to Well-Known-Text

Every geometry, also one inside another, starts with the byte order and the
type code it is stored under.  Both hold up to its end and for nothing
outside it, so they are handed down and never kept.

A geometry inside one that fixes its kind is written without a name; the
others are written under theirs.  A list without items is written `EMPTY`,
set off by a blank if a name is just before it; any other list is written in
parentheses, its items parted by commas.

* `scan` reads one geometry, to a depth of `maxDepth`;
* `pieces` renders it as text, `convert` into a buffer.
-/

namespace RecordStore.Geometry

/-- The order of the bytes of numbers. -/
inductive ByteOrder
  | big
  | little
  deriving DecidableEq, Repr

/-- The number that bytes hold in an order. -/
def ByteOrder.number : ByteOrder → Bytes → Nat
  | .big => Bytes.ofBigEndian
  | .little => Bytes.ofLittleEndian

/-- The order of a flag. -/
def ByteOrder.ofFlag? : Nat → Option ByteOrder
  | 0 => some .big
  | 1 => some .little
  | _ => none

/-- The deepest nesting of geometries that is rendered. -/
def maxDepth : Nat := 64

namespace Scan

/-- Reads a byte order flag. -/
def byteOrder : Scan ByteOrder := do
  let flag ← take 1
  let flag := Bytes.ofLittleEndian flag
  require (ByteOrder.ofFlag? flag) (.byteOrder flag)

/-- Reads a number of four bytes. -/
def word (order : ByteOrder) : Scan Nat := do
  let bytes ← take 4
  return order.number bytes

/-- Reads a number of a position and writes it. -/
def coordinate (order : ByteOrder) : Scan Unit := do
  let bytes ← take 8
  emit (.coordinate (order.number bytes))

/-- As many more items as `count` says, each with a separator before it. -/
def following (separator : Token) (item : Scan Unit) : (count : Nat) → Scan Unit
  | 0 => Scan.pure ()
  | count + 1 => do
    emit separator
    item
    following separator item count

/-- As many items as `count` says, with separators between them. -/
def separated (separator : Token) (item : Scan Unit) : (count : Nat) → Scan Unit
  | 0 => Scan.pure ()
  | count + 1 => do
    item
    following separator item count

/-- The numbers of a position. -/
def position (order : ByteOrder) (mode : Mode) : Scan Unit :=
  separated .blank (coordinate order) mode.dimensions

/-- As many items as `count` says, in parentheses. -/
def parenthesized (item : Scan Unit) (count : Nat) : Scan Unit := do
  emit .openParen
  separated .comma item count
  emit .closeParen

/-- A list that starts with the number of its items. -/
def counted (order : ByteOrder) (afterName : Bool) (item : Scan Unit) : Scan Unit := do
  emit .list
  let count ← word order
  if count = 0 then emit (.empty afterName) else parenthesized item count

/-- A ring: a list of positions. -/
def ring (order : ByteOrder) (mode : Mode) : Scan Unit :=
  counted order false (position order mode)

/-- What a geometry is made of; `member` reads a geometry inside it, of a
given kind or of any. -/
def content (order : ByteOrder) (mode : Mode) (afterName : Bool)
    (member : Option Kind → Scan Unit) (kind : Kind) : Scan Unit :=
  match kind.content with
  | .nothing => parenthesized (emit (.empty false)) 1
  | .position => parenthesized (position order mode) 1
  | .positions => counted order afterName (position order mode)
  | .rings => counted order afterName (ring order mode)
  | .members kind => counted order afterName (member (some kind))
  | .collection => counted order afterName (member none)
  | .reserved => fail (.invalid (.reservedKind kind))

/-- The name of a geometry of any kind; for one whose kind is known from
around it, nothing, or a refusal if it is of another. -/
def heading (kind : Kind) (mode : Mode) : (expected : Option Kind) → Scan Unit
  | none => emit (.name kind mode)
  | some expected =>
    if expected = kind then Scan.pure () else fail (.invalid (.unexpectedKind expected kind))

/-- A geometry with at most `depth` inside each other. -/
def geometry : (depth : Nat) → (expected : Option Kind) → Scan Unit
  | 0, _ => fail (.invalid (.nesting maxDepth))
  | depth + 1, expected => do
    emit .enter
    let order ← byteOrder
    let code ← word order
    let mode ← require (Mode.ofDigit? (code / 1000)) (.coordinateType (code / 1000))
    let kind ← require (Kind.ofCode? (code % 1000)) (.geometryCode (code % 1000))
    heading kind mode expected
    content order mode expected.isNone (geometry depth) kind
    emit .leave

end Scan

/-- The tokens of a geometry, and how reading it ended.  What follows the
geometry is ignored. -/
def scan (wkb : Bytes) : List Token × Except StoreError Unit :=
  let (tokens, result) := Scan.geometry maxDepth none ⟨wkb, 0⟩
  (tokens, result.map fun _ => ())

/-- The text of a geometry, and how rendering it ended; after a failure, the
text up to it. -/
def pieces (wkb : Bytes) (places : Nat) : List Piece × Except StoreError Unit :=
  let (tokens, result) := scan wkb
  (tokens.flatMap (Token.pieces places), result)

/-- The outcome of rendering into a buffer. -/
structure Conversion where
  /-- Bytes that the complete text needs, its terminator included. -/
  written : Nat
  /-- Whether the buffer is smaller than that. -/
  tooSmall : Bool
  deriving DecidableEq, Repr

/-- Renders a geometry into a buffer, with a terminator.  The builder is as
the rendering left it. -/
def convert (wkb : Bytes) (buffer : Array UInt8) (places : Nat) :
    Builder × Except StoreError Conversion :=
  let (text, result) := pieces wkb places
  let builder := (Builder.over buffer).addAll text
  match result with
  | .error e => (builder, .error e)
  | .ok () =>
    let builder := builder.complete
    (builder, .ok ⟨builder.added, builder.full⟩)

end RecordStore.Geometry
