import RecordStore.Numeric.Binary
import RecordStore.Numeric.Digits

/-!
# Doubles in fixed point

A double is written with at most as many decimal places as asked for and
never more than `maxPlaces`.  Its whole part is written with all its digits.
The places are found by multiplying what is left by ten, in double
precision, and cutting off the whole part; if something is left after the
last of them, a half or more carries up through the nines.  Zeros at the end
are not written, nor a point with nothing after it, nor a minus before zero.
-/

namespace RecordStore.FixedPoint

open Binary

/-- The most decimal places that are ever written. -/
def maxPlaces : Nat := 15

/-- At most `places` decimal digits of `left` units, which are less than one,
and the units left over.  It stops early when nothing is left. -/
def expand : (places left : Nat) → List Nat × Nat
  | 0, left => ([], left)
  | count + 1, left =>
    if left = 0 then ([], 0)
    else
      let shifted := double.round (left * 10) 1
      let (rest, excess) := expand count (shifted % one)
      (shifted / one :: rest, excess)

/-- One more in the last of some decimal digits, and whether that carries
beyond the first. -/
def increment : List Nat → List Nat × Bool
  | [] => ([], true)
  | d :: rest =>
    let (rest, carry) := increment rest
    if carry then if d = 9 then (0 :: rest, true) else ((d + 1) :: rest, false)
    else (d :: rest, false)

/-- Digits without the zeros at their end. -/
def trimZeros (digits : List Nat) : List Nat :=
  (digits.reverse.dropWhile (· = 0)).reverse

/-- The whole part and the decimal digits of `units`, rounded to `count`
places. -/
def rounded (count units : Nat) : Nat × List Nat :=
  let (digits, left) := expand count (units % one)
  if digits.length = count ∧ one ≤ 2 * left then
    let (digits, carry) := increment digits
    (units / one + (if carry then 1 else 0), trimZeros digits)
  else (units / one, trimZeros digits)

/-- A finite double: a sign if it is below zero and not written as zero, the
run of its whole part, and the run of its point and decimal digits. -/
def finitePieces (count : Nat) (negative : Bool) (units : Nat) : List Piece :=
  let (whole, digits) := rounded count units
  (if negative && (whole != 0 || !digits.isEmpty) then [Piece.sign '-'] else []) ++
    [Piece.run (Decimal.text whole)] ++
    (if digits.isEmpty then []
      else [Piece.run (UInt8.ofNat '.'.toNat :: digits.map Decimal.digitByte)])

/-- A double with at most `places` decimal places. -/
def pieces (value : Datum) (places : Nat) : List Piece :=
  match value with
  | .nan _ => [Piece.word "NaN"]
  | .infinite negative => [Piece.word (if negative then "-inf" else "inf")]
  | .finite negative units => finitePieces (min places maxPlaces) negative units

end RecordStore.FixedPoint
