import RecordStore.Bytes

/-!
# IP addresses

An address is 4 or 16 octets in network order.  The text of four octets is
dotted decimal.  That of sixteen is eight groups in hexadecimal, of which the
first longest run of two or more zeros is left out; an address that stands
for four octets is written `::ffff:` and the dotted decimal.

Reading accepts every text of the grammar: decimal octets without leading
zeros, groups of at most four hexadecimal digits, at most one `::` standing
for at least one group, and dotted decimal in place of the last two groups.
-/

namespace RecordStore

/-- The octets of an address in network order. -/
structure IpAddress where
  /-- The octets. -/
  octets : Bytes
  /-- There are four octets or sixteen. -/
  length_octets : octets.length = 4 ∨ octets.length = 16
  deriving DecidableEq

namespace IpAddress

/-- The address of some octets, if there are as many as an address has. -/
def ofOctets? (octets : Bytes) : Option IpAddress :=
  if h : octets.length = 4 ∨ octets.length = 16 then some ⟨octets, h⟩ else none

/-! ## Text -/

/-- The decimal octets of an address of four. -/
def dotted (octets : Bytes) : String :=
  ".".intercalate (octets.map fun o => toString o.toNat)

/-- The groups of an address of sixteen octets. -/
def groups : Bytes → List Nat
  | high :: low :: rest => (256 * high.toNat + low.toNat) :: groups rest
  | _ => []

/-- Groups in hexadecimal, joined by colons. -/
def joined (groups : List Nat) : String :=
  ":".intercalate (groups.map fun g => String.ofList (Nat.toDigits 16 g))

/-- Where the first longest run of zeros starts, and its length.  `start` and
`length` are those of the run that reaches up to `index`, `best` that of the
longest so far. -/
def zeroRun (groups : List Nat) (index start length : Nat) (best : Nat × Nat) : Nat × Nat :=
  match groups with
  | [] => best
  | 0 :: rest =>
    let start := if length = 0 then index else start
    let best := if best.2 < length + 1 then (start, length + 1) else best
    zeroRun rest (index + 1) start (length + 1) best
  | _ :: rest => zeroRun rest (index + 1) start 0 best

/-- The text of eight groups. -/
def groupsText (groups : List Nat) : String :=
  let (start, length) := zeroRun groups 0 0 0 (0, 0)
  if 1 < length then
    joined (groups.take start) ++ "::" ++ joined (groups.drop (start + length))
  else joined groups

/-- The octets before the four that an address of sixteen may stand for. -/
def mappedFront : Bytes :=
  List.replicate 10 0 ++ [0xFF, 0xFF]

/-- The text of an address. -/
def text (address : IpAddress) : String :=
  if address.octets.length = 4 then dotted address.octets
  else if address.octets.take 12 = mappedFront then
    "::ffff:" ++ dotted (address.octets.drop 12)
  else groupsText (groups address.octets)

/-! ## Reading -/

/-- The value of a digit in base `base`. -/
def digit? (base : Nat) (c : Char) : Option Nat :=
  let n := c.toNat
  let value :=
    if 48 ≤ n ∧ n ≤ 57 then n - 48
    else if 65 ≤ n ∧ n ≤ 90 then n - 55
    else if 97 ≤ n ∧ n ≤ 122 then n - 87
    else base
  if value < base then some value else none

/-- The number that leading digits in base `base` denote, how many they are,
and the rest. -/
def digits (base : Nat) (value count : Nat) : List Char → Nat × Nat × List Char
  | [] => (value, count, [])
  | c :: rest =>
    match digit? base c with
    | some d => digits base (value * base + d) (count + 1) rest
    | none => (value, count, c :: rest)

/-- A leading number of one to `most` digits in base `base`, and the rest. -/
def number? (base most : Nat) (text : List Char) : Option (Nat × List Char) :=
  let (value, count, rest) := digits base 0 0 text
  if count = 0 ∨ most < count then none else some (value, rest)

/-- A leading decimal octet, and the rest. -/
def octet? (text : List Char) : Option (UInt8 × List Char) :=
  match number? 10 3 text with
  | some (value, rest) =>
    if 255 < value ∨ (text.head? = some '0' ∧ rest.length + 1 < text.length) then none
    else some (UInt8.ofNat value, rest)
  | none => none

/-- As many leading decimal octets with points between them, and the rest. -/
def dottedOctets? : (count : Nat) → List Char → Option (Bytes × List Char)
  | 0, text => some ([], text)
  | 1, text => (octet? text).map fun (o, rest) => ([o], rest)
  | count + 2, text =>
    match octet? text with
    | some (o, '.' :: rest) =>
      (dottedOctets? (count + 1) rest).map fun (octets, after) => (o :: octets, after)
    | _ => none

/-- What leading groups amount to. -/
structure Groups where
  /-- Their octets. -/
  octets : Bytes
  /-- Whether the last four octets were dotted decimal. -/
  dotted : Bool
  /-- What follows them. -/
  rest : List Char

/-- A text after the colon that must stand before every group but the first. -/
def separated? (first : Bool) (text : List Char) : Option (List Char) :=
  if first then some text
  else
    match text with
    | ':' :: rest => some rest
    | _ => none

/-- At most `count` leading groups with colons between them.  Where room is
left for two groups, dotted decimal may stand for them and is the last. -/
def groups? : (count : Nat) → (first : Bool) → List Char → Groups
  | 0, _, text => ⟨[], false, text⟩
  | count + 1, first, text =>
    match separated? first text with
    | none => ⟨[], false, text⟩
    | some body =>
      match (if count = 0 then none else dottedOctets? 4 body) with
      | some (octets, rest) => ⟨octets, true, rest⟩
      | none =>
        match number? 16 4 body with
        | none => ⟨[], false, text⟩
        | some (value, rest) =>
          let more := groups? count false rest
          ⟨UInt8.ofNat (value / 256) :: UInt8.ofNat (value % 256) :: more.octets,
            more.dotted, more.rest⟩

/-- Leading groups that make up an address of sixteen octets, and the rest. -/
def sixteen? (text : List Char) : Option (Bytes × List Char) :=
  let front := groups? 8 true text
  if front.octets.length = 16 then some (front.octets, front.rest)
  else if front.dotted then none
  else
    match front.rest with
    | ':' :: ':' :: rest =>
      let back := groups? (7 - front.octets.length / 2) true rest
      let missing := 16 - front.octets.length - back.octets.length
      some (front.octets ++ List.replicate missing 0 ++ back.octets, back.rest)
    | _ => none

/-- The address that a text as a whole denotes. -/
def ofText? (text : List Char) : Option IpAddress :=
  match dottedOctets? 4 text with
  | some (octets, []) => ofOctets? octets
  | _ =>
    match sixteen? text with
    | some (octets, []) => ofOctets? octets
    | _ => none

end IpAddress

end RecordStore
