/-!
# The number at the front of a text

Texts are read as numbers from their front: blanks are skipped, the longest
stretch that has the form of a number counts, and what follows is ignored.

* `integer` finds the longest stretch of the form `[+-]?[0-9]+`;
* `decimal` finds the longest stretch of the form
  `[+-]?([0-9]+(.[0-9]*)?|.[0-9]+)([eE][+-]?[0-9]+)?`.

Both are empty where no stretch has the form.
-/

namespace RecordStore.Leading

/-- A leading sign, if there is one, and the rest. -/
def sign : List Char → List Char × List Char
  | '+' :: rest => (['+'], rest)
  | '-' :: rest => (['-'], rest)
  | text => ([], text)

/-- The leading digits and the rest. -/
def digits (text : List Char) : List Char × List Char :=
  (text.takeWhile Char.isDigit, text.dropWhile Char.isDigit)

/-- The longest front part of the form of an integer. -/
def integer (text : List Char) : List Char :=
  let (sign, rest) := sign text
  let (whole, _) := digits rest
  if whole = [] then [] else sign ++ whole

/-- A leading point with the digits after it, if together with `whole` digits
before it there are any; and the rest. -/
def fraction (whole : List Char) : List Char → List Char × List Char
  | '.' :: rest =>
    let (part, after) := digits rest
    if whole = [] ∧ part = [] then ([], '.' :: rest) else ('.' :: part, after)
  | text => ([], text)

/-- A leading exponent, if it has a digit. -/
def exponent : List Char → List Char
  | marker :: rest =>
    if marker = 'e' ∨ marker = 'E' then
      let (sign, after) := sign rest
      let (part, _) := digits after
      if part = [] then [] else marker :: (sign ++ part)
    else []
  | [] => []

/-- The longest front part of the form of a decimal number. -/
def decimal (text : List Char) : List Char :=
  let (sign, rest) := sign text
  let (whole, rest) := digits rest
  let (part, rest) := fraction whole rest
  if whole = [] ∧ part = [] then [] else sign ++ whole ++ part ++ exponent rest

end RecordStore.Leading
