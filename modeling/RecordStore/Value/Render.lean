import RecordStore.Value.Basic
import RecordStore.Geometry.Render
import RecordStore.IpAddress
import RecordStore.Text.Utf8

/-!
# Stored values as text

A value is rendered as pieces of text, which a bounded builder takes as far
as they fit.  `StoredValue.text?` is the whole text: most texts fit a buffer
of `usualLength`, and the count of one that does not says how long a second
buffer has to be.
-/

namespace RecordStore

namespace StoredValue

/-- The length of a buffer that holds most texts. -/
def usualLength : Nat := 128

/-- The text of a value, and how rendering it ended; after a failure, the text
up to it. -/
def pieces (value : StoredValue) (places : Nat) : List Piece × Except StoreError Unit :=
  match value with
  | .text bytes => ([.run bytes], .ok ())
  | .ipAddress octets =>
    match IpAddress.ofOctets? octets with
    | some address => ([Piece.word address.text], .ok ())
    | none => ([], .error (.corrupt (.addressLength octets.length)))
  | .wkb bytes => Geometry.pieces bytes places
  | .integer value => (Decimal.pieces value.toInt, .ok ())
  | .single bits => (FixedPoint.pieces (Binary.single.ofBits bits.toNat) places, .ok ())
  | .azimuth raw => (FixedPoint.pieces (degrees raw azimuthMax) places, .ok ())
  | .declination raw => (FixedPoint.pieces (degrees raw declinationMax) places, .ok ())
  | .byte value => (Decimal.pieces value.toNat, .ok ())

/-- Adds the text of a value to a builder, without a terminator. -/
def writeTo (value : StoredValue) (builder : Builder) (places : Nat) :
    Builder × Except StoreError Unit :=
  let (written, result) := value.pieces places
  (builder.addAll written, result)

/-- A builder over a new buffer of `size` bytes. -/
def buffer (size : Nat) : Builder :=
  .over (Array.replicate size 0)

/-- The text of a value, in bytes. -/
def textBytes (value : StoredValue) (places : Nat) : Except StoreError Bytes := do
  let (first, result) := value.writeTo (buffer usualLength) places
  result
  let first := first.complete
  if !first.full then return first.text
  let (second, result) := value.writeTo (buffer first.added) places
  result
  return second.complete.text

/-- The text of a value; U+FFFD stands for what is no text in it. -/
def toText (value : StoredValue) (places : Nat) : Except StoreError String :=
  Utf8.lossy <$> value.textBytes places

end StoredValue

end RecordStore
