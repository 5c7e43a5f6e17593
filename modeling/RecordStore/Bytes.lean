/-!
# Bytes and the numbers they hold

Everything a store keeps is a list of bytes.  A fixed-width number occupies
a few of them, least significant first unless a geometry says otherwise, and
a record is a **window** of a longer list.

* `split?_eq_some_iff` — splitting off the front loses nothing and yields
  exactly as many bytes as asked for;
* `length_littleEndian`, `ofLittleEndian_littleEndian` — a number written in
  `width` bytes reads back modulo `256 ^ width`.
-/

namespace RecordStore

/-- Stored data, in order of increasing address. -/
abbrev Bytes := List UInt8

namespace Bytes

/-- The first `count` bytes and what follows them; none if there are fewer. -/
def split? : Nat → Bytes → Option (Bytes × Bytes)
  | 0, bytes => some ([], bytes)
  | _ + 1, [] => none
  | count + 1, b :: rest => (split? count rest).map fun (front, back) => (b :: front, back)

/-- The `count` bytes at `start`; none unless all of them are there. -/
def window? (bytes : Bytes) (start count : Nat) : Option Bytes :=
  if start + count ≤ bytes.length then some ((bytes.drop start).take count) else none

/-- The number held by bytes whose least significant comes first. -/
def ofLittleEndian : Bytes → Nat
  | [] => 0
  | b :: rest => b.toNat + 256 * ofLittleEndian rest

/-- The number held by bytes whose most significant comes first. -/
def ofBigEndian (bytes : Bytes) : Nat :=
  ofLittleEndian bytes.reverse

/-- A number in `width` bytes, least significant first; what does not fit is
dropped. -/
def littleEndian : (width : Nat) → Nat → Bytes
  | 0, _ => []
  | width + 1, n => UInt8.ofNat n :: littleEndian width (n / 256)

/-- The number in the first `width` bytes; none if there are fewer.  Bytes
after it are ignored. -/
def leading? (width : Nat) (bytes : Bytes) : Option Nat :=
  (split? width bytes).map fun (front, _) => ofLittleEndian front

/-- **Splitting is exact.**  The two parts make up the whole, and the first
is as long as asked for. -/
theorem split?_eq_some_iff {count : Nat} {bytes front back : Bytes} :
    split? count bytes = some (front, back) ↔
      bytes = front ++ back ∧ front.length = count := by
  induction count generalizing bytes front with
  | zero =>
    cases front <;> simp [split?, eq_comm]
  | succ n ih =>
    cases bytes with
    | nil => cases front <;> simp [split?]
    | cons b rest =>
      cases front with
      | nil => simp [split?]
      | cons f front =>
        simp [split?, ih]
        grind

/-- Splitting fails only for want of bytes. -/
theorem split?_eq_none_iff {count : Nat} {bytes : Bytes} :
    split? count bytes = none ↔ bytes.length < count := by
  induction count generalizing bytes with
  | zero => simp [split?]
  | succ n ih =>
    cases bytes with
    | nil => simp [split?]
    | cons b rest => simp [split?, ih]

/-- Two lists have the same window if they have the same bytes there. -/
theorem window?_congr {bytes other : Bytes} {start count : Nat} (hpos : 0 < count)
    (h : ∀ i, start ≤ i → i < start + count → bytes[i]? = other[i]?) :
    window? bytes start count = window? other start count := by
  have hlast := h (start + count - 1) (by omega) (by omega)
  have hends : start + count ≤ bytes.length ↔ start + count ≤ other.length := by
    have hbytes := List.getElem?_eq_none_iff (l := bytes) (i := start + count - 1)
    have hother := List.getElem?_eq_none_iff (l := other) (i := start + count - 1)
    rw [hlast] at hbytes
    have hshort := hbytes.symm.trans hother
    omega
  have hsame : (bytes.drop start).take count = (other.drop start).take count := by
    apply List.ext_getElem?
    intro i
    rw [List.getElem?_take, List.getElem?_take]
    split
    · rw [List.getElem?_drop, List.getElem?_drop]
      exact h (start + i) (by omega) (by omega)
    · rfl
  unfold window?
  rw [hsame]
  simp only [hends]

@[simp] theorem length_littleEndian (width n : Nat) :
    (littleEndian width n).length = width := by
  induction width generalizing n with
  | zero => rfl
  | succ w ih => simp [littleEndian, ih]

/-- A number reads back modulo what its width can hold. -/
theorem ofLittleEndian_littleEndian (width n : Nat) :
    ofLittleEndian (littleEndian width n) = n % Nat.pow 256 width := by
  induction width generalizing n with
  | zero => simp [littleEndian, ofLittleEndian, Nat.mod_one]
  | succ w ih =>
    have byte : (UInt8.ofNat n).toNat = n % 256 := by simp
    have power : Nat.pow 256 (w + 1) = 256 * Nat.pow 256 w := Nat.pow_succ'
    rw [littleEndian, ofLittleEndian, ih, byte, power, Nat.mod_mul]

end Bytes

end RecordStore
