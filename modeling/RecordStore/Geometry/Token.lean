import RecordStore.Geometry.Kind
import RecordStore.Numeric.FixedPoint

/-!
# The text of geometries, token by token

A geometry is rendered in two stages.  Reading its bytes yields **tokens**;
the text of a token depends on nothing but the token and the number of
decimal places.  Three tokens are silent: they mark where geometries and
counted lists begin and where geometries end, so that what a rendering went
through can be told from its tokens alone.
-/

namespace RecordStore.Geometry

/-- A part of the text of a geometry, or a mark between such parts. -/
inductive Token
  /-- A geometry begins; no text. -/
  | enter
  /-- The innermost geometry ends; no text. -/
  | leave
  /-- A counted list begins; no text. -/
  | list
  /-- The name of a geometry and the tag of its mode. -/
  | name (kind : Kind) (mode : Mode)
  /-- The word for a list without items, set off from a name before it. -/
  | empty (afterName : Bool)
  | openParen
  | closeParen
  | comma
  | blank
  /-- A number of a position, as the bits of a double. -/
  | coordinate (bits : Nat)
  deriving DecidableEq, Repr

namespace Token

/-- The text of a token. -/
def pieces (places : Nat) : Token → List Piece
  | .enter | .leave | .list => []
  | .name kind mode =>
    Piece.word kind.name ::
      (match mode.tag? with
      | some tag => [Piece.sign ' ', Piece.word tag]
      | none => [])
  | .empty afterName =>
    (if afterName then [Piece.sign ' '] else []) ++ [Piece.word "EMPTY"]
  | .openParen => [Piece.sign '(']
  | .closeParen => [Piece.sign ')']
  | .comma => [Piece.sign ',']
  | .blank => [Piece.sign ' ']
  | .coordinate bits => FixedPoint.pieces (Binary.double.ofBits bits) places

end Token

end RecordStore.Geometry
