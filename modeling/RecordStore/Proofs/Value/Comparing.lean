import Mathlib
import RecordStore.Proofs.Value.Address
import RecordStore.Proofs.Value.Attempts

/-!
# Comparing stored values with the texts of others

A text, an address, a geometry or an integer is compared with the text of
another of its kind.  Each kind has a key: the bytes of a text, the octets of
an address, the bytes of the text of a geometry, and the integer itself.  The
text of a value says as much as its key does, and a comparison reads the key
back from the text, so that comparing with texts is comparing keys.

`Ranked` is what has to be shown of a kind, `Ranked.orders` what follows from
it; `compareWith_total_order` is all kinds together.
-/

namespace RecordStore

/-! ## Orders -/

namespace Bytes

/-- Where the parts that both have are alike, what is longer comes after. -/
theorem order_eq_take (a b : Bytes) :
    order a b = (order (a.take (min a.length b.length)) (b.take (min a.length b.length))).then
      (compare a.length b.length) := by
  induction a generalizing b with
  | nil =>
      cases b with
      | nil => rfl
      | cons y b =>
          have hshorter : compare 0 (b.length + 1) = .lt :=
            Nat.compare_eq_lt.mpr (Nat.succ_pos _)
          rw [List.length_nil, List.length_cons, hshorter, Nat.zero_min]
          rfl
  | cons x a ih =>
      cases b with
      | nil =>
          have hlonger : compare (a.length + 1) 0 = .gt :=
            Nat.compare_eq_gt.mpr (Nat.succ_pos _)
          rw [List.length_nil, List.length_cons, hlonger, Nat.min_zero]
          rfl
      | cons y b =>
          have hlengths : compare (a.length + 1) (b.length + 1) = compare a.length b.length := by
            rw [Nat.compare_eq_ite_lt, Nat.compare_eq_ite_lt]
            simp only [Nat.add_lt_add_iff_right]
          rw [List.length_cons, List.length_cons, hlengths, Nat.succ_min_succ, List.take_succ_cons,
            List.take_succ_cons, order, order, ih, Ordering.then_assoc]

end Bytes

theorem order_eq_iff {a b : Bytes} : Bytes.order a b = .eq ↔ a = b := by
  rw [Bytes.order_eq_compare]
  exact Std.compare_eq_iff_eq

namespace StoredValue

theorem sign_sign (o : Ordering) : (sign o).sign = sign o := by
  cases o <;> rfl

theorem sign_swap (o : Ordering) : sign o.swap = -sign o := by
  cases o <;> rfl

theorem sign_eq_zero_iff {o : Ordering} : sign o = 0 ↔ o = .eq := by
  cases o <;> decide

theorem sign_nonpos_iff {o : Ordering} : sign o ≤ 0 ↔ o.isLE = true := by
  cases o <;> decide

theorem sign_neg_iff {o : Ordering} : sign o < 0 ↔ o = .lt := by
  cases o <;> decide

/-- The sign of a difference is the order. -/
theorem sign_sub (a b : Int) : (a - b).sign = sign (compare a b) := by
  rcases Int.lt_trichotomy a b with h | rfl | h
  · rw [Int.compare_eq_lt.mpr h]
    exact Int.sign_eq_neg_one_of_neg (Int.sub_neg_of_lt h)
  · rw [Int.compare_eq_eq.mpr rfl, Int.sub_self]
    rfl
  · rw [Int.compare_eq_gt.mpr h]
    exact Int.sign_eq_one_of_pos (Int.sub_pos_of_lt h)

/-- How a value compares with the text of another. -/
def against (a b : StoredValue) : Except StoreError Int := do
  a.compareWith (← b.toText FixedPoint.maxPlaces)

/-! ## Kinds with a key -/

section

variable {X K : Type} [Ord K] {value : X → StoredValue} {key : X → K} {text : X → String}

/-- Values with keys and texts: a value shows as its text, texts are alike if
the keys are, and comparing a value with a text is comparing keys. -/
structure Ranked (value : X → StoredValue) (key : X → K) (text : X → String) : Prop where
  toText : ∀ x, (value x).toText FixedPoint.maxPlaces = .ok (text x)
  alike : ∀ x y, key x = key y ↔ text x = text y
  compares : ∀ x y, ∃ n, (value x).compareWith (text y) = .ok n ∧
    n.sign = sign (compare (key x) (key y))

theorem Ranked.against (h : Ranked value key text) (x y : X) :
    ∃ n, (value x).against (value y) = .ok n ∧ n.sign = sign (compare (key x) (key y)) := by
  obtain ⟨n, hn, hsign⟩ := h.compares x y
  refine ⟨n, ?_, hsign⟩
  rw [StoredValue.against, h.toText y]
  exact hn

/-- Comparisons of three values are those of a total order, in which a value is
equal to those of its text. -/
def Ordered (a b c : StoredValue) : Prop :=
  ∃ ab ba bc ac : Int, a.against b = .ok ab ∧ b.against a = .ok ba ∧ b.against c = .ok bc ∧
    a.against c = .ok ac ∧ ba.sign = -ab.sign ∧
    (ab = 0 ↔ a.toText FixedPoint.maxPlaces = b.toText FixedPoint.maxPlaces) ∧
    (ab ≤ 0 → bc ≤ 0 → ac ≤ 0) ∧ (ab < 0 → bc ≤ 0 → ac < 0) ∧ (ab ≤ 0 → bc < 0 → ac < 0)

/-- **Keys order values.** -/
theorem Ranked.orders [Std.TransOrd K] [Std.LawfulEqOrd K] (h : Ranked value key text)
    (x y z : X) : Ordered (value x) (value y) (value z) := by
  obtain ⟨ab, hab, habs⟩ := h.against x y
  obtain ⟨ba, hba, hbas⟩ := h.against y x
  obtain ⟨bc, hbc, hbcs⟩ := h.against y z
  obtain ⟨ac, hac, hacs⟩ := h.against x z
  have hle : ∀ {n : Int} {o : Ordering}, n.sign = sign o → (n ≤ 0 ↔ o.isLE = true) := by
    intro n o hsign
    rw [← sign_nonpos_iff, ← hsign, Int.sign_nonpos_iff]
  have hlt : ∀ {n : Int} {o : Ordering}, n.sign = sign o → (n < 0 ↔ o = .lt) := by
    intro n o hsign
    rw [← sign_neg_iff, ← hsign, Int.sign_neg_iff]
  refine ⟨ab, ba, bc, ac, hab, hba, hbc, hac, ?_, ?_, ?_, ?_, ?_⟩
  · rw [hbas, habs, ← sign_swap, ← Std.OrientedCmp.eq_swap]
  · rw [← Int.sign_eq_zero_iff_zero, habs, sign_eq_zero_iff, Std.LawfulEqCmp.compare_eq_iff_eq,
      h.alike, h.toText, h.toText, Except.ok.injEq]
  · rw [hle habs, hle hbcs, hle hacs]
    exact Std.TransCmp.isLE_trans
  · rw [hlt habs, hle hbcs, hlt hacs]
    exact Std.TransCmp.lt_of_lt_of_isLE
  · rw [hle habs, hlt hbcs, hlt hacs]
    exact Std.TransCmp.lt_of_isLE_of_lt

end

/-! ## Texts -/

theorem toText_text (value : String) (places : Nat) :
    (text (Utf8.encode value)).toText places = .ok value := by
  rw [toText_eq]
  show Except.ok (Utf8.lossy (Piece.textOf [.run (Utf8.encode value)])) = .ok value
  rw [Piece.textOf, List.flatMap_singleton]
  exact congrArg _ (Utf8.lossy_encode value)

theorem ranked_text :
    Ranked (fun text : String => .text (Utf8.encode text)) Utf8.encode id where
  toText text := toText_text text FixedPoint.maxPlaces
  alike text other := Utf8.encode_injective.eq_iff
  compares text other := by
    refine ⟨_, rfl, ?_⟩
    rw [sign_sign, Bytes.order_eq_compare]
    rfl

/-! ## Addresses -/

theorem textOf_address (address : IpAddress) :
    Utf8.lossy (Piece.textOf [Piece.word address.text]) = address.text := by
  have hascii := fun c hc => (IpAddress.isSpelling_text address c hc).ascii
  rw [Piece.textOf, List.flatMap_singleton]
  exact (Utf8.lossy_of_ascii hascii).trans String.ofList_toList

theorem toText_address (address : IpAddress) (places : Nat) :
    (ipAddress address.octets).toText places = .ok address.text := by
  rw [toText_eq, pieces, IpAddress.ofOctets?_octets]
  exact congrArg Except.ok (textOf_address address)

/-- Octets are compared with a text that denotes an address as with the octets of
that. -/
theorem sign_compareAddress_of_denotes {octets : Bytes} {target : String} {address : IpAddress}
    (h : IpAddress.ofText? (Blank.trim target.toList) = some address) :
    (compareAddress octets target).sign = sign (Bytes.order octets address.octets) := by
  rw [compareAddress, h, Bytes.order_eq_take]
  simp only
  cases Bytes.order (octets.take (min octets.length address.octets.length))
      (address.octets.take (min octets.length address.octets.length)) with
  | eq =>
      show ((octets.length : Int) - address.octets.length).sign =
        sign (compare octets.length address.octets.length)
      rw [sign_sub, Int.compare_eq_ite_lt, Nat.compare_eq_ite_lt]
      simp only [Int.ofNat_lt]
  | lt => rfl
  | gt => rfl

/-- Octets are compared with the text of an address as with its octets. -/
theorem sign_compareAddress (octets : Bytes) (address : IpAddress) :
    (compareAddress octets address.text).sign = sign (compare octets address.octets) := by
  rw [sign_compareAddress_of_denotes (IpAddress.ofText?_text address), Bytes.order_eq_compare]

theorem ranked_address :
    Ranked (fun address : IpAddress => .ipAddress address.octets) IpAddress.octets
      IpAddress.text where
  toText address := toText_address address FixedPoint.maxPlaces
  alike address other := by
    constructor
    · intro hoctets
      cases address
      cases other
      cases hoctets
      rfl
    · intro htext
      have hread := IpAddress.ofText?_text address
      rw [htext, IpAddress.ofText?_text] at hread
      cases hread
      rfl
  compares address other := ⟨_, rfl, sign_compareAddress address.octets other⟩

/-! ## Geometries -/

/-- A geometry that can be rendered. -/
abbrev Renderable : Type :=
  {bytes : Bytes // (Geometry.pieces bytes FixedPoint.maxPlaces).2 = .ok ()}

namespace Renderable

/-- The text of a geometry. -/
def text (geometry : Renderable) : String :=
  Utf8.lossy (Piece.textOf (Geometry.pieces geometry.1 FixedPoint.maxPlaces).1)

theorem toText_eq (geometry : Renderable) :
    (StoredValue.wkb geometry.1).toText FixedPoint.maxPlaces = .ok geometry.text := by
  rw [StoredValue.toText_eq, pieces, Piece.wholeText, geometry.2]
  rfl

end Renderable

theorem ranked_wkb :
    Ranked (fun geometry : Renderable => .wkb geometry.1)
      (fun geometry => Utf8.encode geometry.text) Renderable.text where
  toText := Renderable.toText_eq
  alike geometry other := Utf8.encode_injective.eq_iff
  compares geometry other := by
    refine ⟨sign (Bytes.order (Utf8.encode geometry.text) (Utf8.encode other.text)), ?_, ?_⟩
    · rw [compareWith, geometry.toText_eq]
      rfl
    · rw [sign_sign, Bytes.order_eq_compare]

/-! ## Integers -/

theorem lossy_integer (value : Int) :
    Utf8.lossy (Piece.textOf (Decimal.pieces value)) =
      String.ofList (Decimal.characters value) := by
  rw [Decimal.textOf_pieces, Utf8.lossy_of_ascii (Decimal.ascii_characters value)]

theorem toText_integer (n : Int32) (places : Nat) :
    (integer n).toText places = .ok (String.ofList (Decimal.characters n.toInt)) := by
  rw [toText_eq]
  exact congrArg Except.ok (lossy_integer n.toInt)

theorem toText_byte (n : UInt8) (places : Nat) :
    (byte n).toText places = .ok (String.ofList (Decimal.characters n.toNat)) := by
  rw [toText_eq]
  exact congrArg Except.ok (lossy_integer n.toNat)

/-- Cutting a difference to 32 bits keeps its sign. -/
theorem sign_clamp (n : Int) :
    (max Literal.i32.low (min Literal.i32.high n)).sign = n.sign := by
  have hlow : Literal.i32.low = -2147483648 := rfl
  have hhigh : Literal.i32.high = 2147483647 := rfl
  rw [hlow, hhigh]
  rcases Int.lt_trichotomy n 0 with h | rfl | h
  · rw [Int.sign_eq_neg_one_of_neg h, Int.sign_eq_neg_one_of_neg (by omega)]
  · rfl
  · rw [Int.sign_eq_one_of_pos h, Int.sign_eq_one_of_pos (by omega)]

theorem ranked_integer :
    Ranked StoredValue.integer Int32.toInt
      (fun n => String.ofList (Decimal.characters n.toInt)) where
  toText n := toText_integer n FixedPoint.maxPlaces
  alike n other := by
    constructor
    · intro hsame
      rw [hsame]
    · intro htext
      rw [← Decimal.signed_characters n.toInt, String.ofList_inj.mp htext,
        Decimal.signed_characters]
  compares n other := by
    have hlow := other.le_toInt
    have hhigh := other.toInt_lt
    refine ⟨_, rfl, ?_⟩
    have hinside : Literal.i32.contains other.toInt = true := by
      rw [Literal.Range.contains, Bool.and_eq_true, decide_eq_true_iff, decide_eq_true_iff]
      exact ⟨hlow, Int.le_of_lt_add_one hhigh⟩
    have hlong : Literal.i64.contains other.toInt = true := by
      rw [Literal.Range.contains, Bool.and_eq_true, decide_eq_true_iff, decide_eq_true_iff]
      exact ⟨Int.le_trans (by decide) hlow, Int.le_trans (Int.le_of_lt hhigh) (by decide)⟩
    rw [compareInteger, leadingLong?_characters hlong]
    simp only
    rw [if_pos hinside, sign_clamp, sign_sub]

/-! ## All kinds -/

/-- The kinds of values whose comparisons with texts are an order. -/
inductive Kind
  | text
  | ipAddress
  | wkb
  | integer

/-- Values of a kind: texts that are UTF-8, addresses of 4 or 16 octets,
geometries that can be rendered, and integers. -/
inductive Kind.Has : Kind → StoredValue → Prop
  | text (text : String) : Has .text (.text (Utf8.encode text))
  | ipAddress (address : IpAddress) : Has .ipAddress (.ipAddress address.octets)
  | wkb {bytes : Bytes} (h : (Geometry.pieces bytes FixedPoint.maxPlaces).2 = .ok ()) :
      Has .wkb (.wkb bytes)
  | integer (n : Int32) : Has .integer (.integer n)

/-- **Comparing with texts is a total order** of the values of a kind. -/
theorem compareWith_total_order {kind : Kind} {a b c : StoredValue} (ha : kind.Has a)
    (hb : kind.Has b) (hc : kind.Has c) : Ordered a b c := by
  cases ha with
  | text x =>
      cases hb
      cases hc
      exact ranked_text.orders x _ _
  | ipAddress x =>
      cases hb
      cases hc
      exact ranked_address.orders x _ _
  | wkb hx =>
      cases hb with
      | wkb hy =>
          cases hc with
          | wkb hz => exact ranked_wkb.orders ⟨_, hx⟩ ⟨_, hy⟩ ⟨_, hz⟩
  | integer n =>
      cases hb
      cases hc
      exact ranked_integer.orders n _ _

/-- The least and the greatest integer, whose difference has 33 bits. -/
theorem compareWith_extremes : Kind.integer.Has (.integer Int32.minValue) ∧
    Kind.integer.Has (.integer Int32.maxValue) ∧
    Ordered (.integer Int32.minValue) (.integer Int32.maxValue) (.integer Int32.minValue) :=
  ⟨.integer _, .integer _, compareWith_total_order (.integer _) (.integer _) (.integer _)⟩

end StoredValue

end RecordStore
