/-!
# Binary floating point, exactly

The finite numbers of the formats in use are all multiples of `2 ^ -1074`,
the least positive double.  They are kept as counts of this **unit**, so
that every operation below is one on natural numbers: an exact product or
quotient, rounded once to the nearest number of the format, a tie going to
the even significand.

* `nearest` is the nearest natural number to a quotient;
* `Format.round` rounds a quotient of units to a format;
* `Format.ofBits` and `Format.toBits` are the layout in bits: sign,
  exponent, fraction;
* `Datum.compare?` orders values, `Datum.truncate` cuts them to integers.
-/

namespace RecordStore.Binary

/-- The power of two that the unit is the inverse of. -/
def scale : Nat := 1074

/-- How many units make one. -/
def one : Nat := Nat.pow 2 scale

/-- A floating point format. -/
structure Format where
  /-- Bits of a significand. -/
  precision : Nat
  /-- Bits of an exponent. -/
  exponentBits : Nat
  /-- The least positive number is `2 ^ step` units. -/
  step : Nat
  deriving DecidableEq, Repr

/-- Double precision. -/
def double : Format := ⟨53, 11, 0⟩

/-- Single precision. -/
def single : Format := ⟨24, 8, 925⟩

/-- A floating point value. -/
inductive Datum
  /-- Not a number. -/
  | nan (negative : Bool)
  /-- Beyond all numbers. -/
  | infinite (negative : Bool)
  /-- A number of units, with a sign that zero has too. -/
  | finite (negative : Bool) (units : Nat)
  deriving DecidableEq, Repr, Inhabited

/-- The natural number nearest to `num / den`, the even one of two. -/
def nearest (num den : Nat) : Nat :=
  let whole := num / den
  let twice := 2 * (num % den)
  if twice < den then whole
  else if den < twice then whole + 1
  else if whole % 2 = 0 then whole else whole + 1

namespace Format

/-- Numbers of `2 ^ f.limit` units and more are beyond the format. -/
def limit (f : Format) : Nat :=
  f.step + (Nat.pow 2 f.exponentBits - 2) + (f.precision - 1)

/-- The exponent of the spacing between the numbers of the format around
`num / den` units. -/
def spacing (f : Format) (num den : Nat) : Nat :=
  max f.step ((num / den).log2 - (f.precision - 1))

/-- The number of the format nearest to `num / den` units, its exponent
unbounded. -/
def round (f : Format) (num den : Nat) : Nat :=
  nearest num (den * Nat.pow 2 (f.spacing num den)) * Nat.pow 2 (f.spacing num den)

/-- The value of the format nearest to `num / den` units. -/
def datum (f : Format) (negative : Bool) (num den : Nat) : Datum :=
  let units := f.round num den
  if units < Nat.pow 2 f.limit then .finite negative units else .infinite negative

/-- The value that `bits` lays out. -/
def ofBits (f : Format) (bits : Nat) : Datum :=
  let implicit := Nat.pow 2 (f.precision - 1)
  let fraction := bits % implicit
  let exponent := bits / implicit % Nat.pow 2 f.exponentBits
  let negative := bits / implicit / Nat.pow 2 f.exponentBits % 2 = 1
  if exponent = Nat.pow 2 f.exponentBits - 1 then
    if fraction = 0 then .infinite negative else .nan negative
  else if exponent = 0 then .finite negative (fraction * Nat.pow 2 f.step)
  else .finite negative ((implicit + fraction) * Nat.pow 2 (f.step + (exponent - 1)))

/-- The layout in bits of a value of the format.  The value that is not a
number has the highest bit of its fraction set, and no other. -/
def toBits (f : Format) (value : Datum) : Nat :=
  let implicit := Nat.pow 2 (f.precision - 1)
  let sign (negative : Bool) := if negative then implicit * Nat.pow 2 f.exponentBits else 0
  let top := (Nat.pow 2 f.exponentBits - 1) * implicit
  match value with
  | .nan negative => sign negative + top + implicit / 2
  | .infinite negative => sign negative + top
  | .finite negative units =>
    let steps := units / Nat.pow 2 f.step
    if steps < implicit then sign negative + steps
    else
      let shift := steps.log2 - (f.precision - 1)
      sign negative + shift * implicit + steps / Nat.pow 2 shift

/-- A value times `num / den`, rounded to the format. -/
def rescale (f : Format) (value : Datum) (num den : Nat) : Datum :=
  match value with
  | .finite negative units => f.datum negative (units * num) den
  | other => other

/-- The value of the format nearest to an integer. -/
def ofInt (f : Format) (value : Int) : Datum :=
  f.datum (value < 0) (value.natAbs * one) 1

/-- The value of the format nearest to `digits * 10 ^ exponent`.  Far outside
the exponents of any format the power of ten is not worked out: whatever has
more than 400 digits before the point is beyond all numbers, and whatever has
400 zeros after it is nearest to zero. -/
def ofDecimal (f : Format) (negative : Bool) (digits : Nat) (exponent : Int) : Datum :=
  if digits = 0 then .finite negative 0
  else
    let magnitude : Int := (Nat.log2 digits : Int) * 30103 / 100000 + exponent
    if magnitude > 400 then .infinite negative
    else if magnitude < -400 then .finite negative 0
    else if 0 ≤ exponent then f.datum negative (digits * Nat.pow 10 exponent.toNat * one) 1
    else f.datum negative (digits * one) (Nat.pow 10 exponent.natAbs)

end Format

namespace Datum

/-- Where a value lies among the numbers: below all, at one, above all. -/
def order (a b : Datum) : Ordering :=
  let rank : Datum → Int × Int
    | .nan _ => (0, 0)
    | .infinite negative => (if negative then -1 else 1, 0)
    | .finite negative units => (0, if negative then -(units : Int) else units)
  match compare (rank a).1 (rank b).1 with
  | .eq => compare (rank a).2 (rank b).2
  | different => different

/-- Is a value not a number? -/
def isNaN : Datum → Bool
  | .nan _ => true
  | _ => false

/-- The order of two values; none if either is not a number. -/
def compare? (a b : Datum) : Option Ordering :=
  if a.isNaN || b.isNaN then none else some (a.order b)

/-- A value cut toward zero to an integer and then to the range from `low` to
`high`; what is not a number becomes zero. -/
def truncate (low high : Int) : Datum → Int
  | .nan _ => 0
  | .infinite negative => if negative then low else high
  | .finite negative units =>
    let whole : Int := (units / one : Nat)
    max low (min high (if negative then -whole else whole))

/-- A value rounded to the nearest integer, a half going away from zero. -/
def roundAway : Datum → Datum
  | .finite negative units => .finite negative ((2 * units + one) / (2 * one) * one)
  | other => other

/-- Is a value zero, of either sign? -/
def isZero : Datum → Bool
  | .finite _ units => units = 0
  | _ => false

end Datum

/-- A quotient that is exact is its own nearest number. -/
theorem nearest_mul {n den : Nat} (h : 0 < den) : nearest (n * den) den = n := by
  simp [nearest, Nat.mul_div_cancel _ h, h]

/-- **Representable results are exact.**  A number that is a multiple of the
spacing around it is rounded to itself. -/
theorem Format.round_eq_self {f : Format} {n : Nat}
    (h : Nat.pow 2 (f.spacing n 1) ∣ n) : f.round n 1 = n := by
  obtain ⟨k, hk⟩ := h
  have exact : nearest n (1 * Nat.pow 2 (f.spacing n 1)) = k := by
    conv => lhs; arg 1; rw [hk]
    rw [Nat.one_mul, Nat.mul_comm]
    exact nearest_mul (Nat.two_pow_pos _)
  rw [Format.round, exact, Nat.mul_comm]
  exact hk.symm

end RecordStore.Binary
