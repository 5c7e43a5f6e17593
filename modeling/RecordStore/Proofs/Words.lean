import Mathlib
import RecordStore.Geometry.Render

/-!
# Words of a given width, in either order

Reading a number from bytes and writing it into as many bytes undo each
other, whatever the order of the bytes.  `ByteOrder.bytes` is the written
form; `ByteOrder.eq_bytes_of_number` says that there is no other.
-/

namespace RecordStore

namespace Bytes

/-- Bytes hold less than their width allows. -/
theorem ofLittleEndian_lt (bytes : Bytes) :
    ofLittleEndian bytes < 256 ^ bytes.length := by
  induction bytes with
  | nil => simp [ofLittleEndian]
  | cons b rest ih =>
      have hb : b.toNat < 256 := b.toNat_lt
      rw [ofLittleEndian, List.length_cons, Nat.pow_succ']
      omega

/-- Writing the number that bytes hold gives the bytes back. -/
theorem littleEndian_ofLittleEndian (bytes : Bytes) :
    littleEndian bytes.length (ofLittleEndian bytes) = bytes := by
  induction bytes with
  | nil => rfl
  | cons b rest ih =>
      have hb : b.toNat < 256 := b.toNat_lt
      have hfirst : UInt8.ofNat (b.toNat + 256 * ofLittleEndian rest) = b := by
        apply UInt8.toNat_inj.mp
        simp
      have hrest : (b.toNat + 256 * ofLittleEndian rest) / 256 = ofLittleEndian rest := by
        omega
      rw [List.length_cons, ofLittleEndian, littleEndian, hfirst, hrest, ih]

end Bytes

namespace Geometry.ByteOrder

/-- A number written in `width` bytes. -/
def bytes : ByteOrder → (width : Nat) → Nat → Bytes
  | .big, width, n => (Bytes.littleEndian width n).reverse
  | .little, width, n => Bytes.littleEndian width n

/-- The byte that says the order. -/
def flag : ByteOrder → UInt8
  | .big => 0
  | .little => 1

@[simp] theorem length_bytes (order : ByteOrder) (width n : Nat) :
    (order.bytes width n).length = width := by
  cases order <;> simp [bytes]

/-- A number that fits is read back. -/
theorem number_bytes (order : ByteOrder) {width n : Nat} (hn : n < 256 ^ width) :
    order.number (order.bytes width n) = n := by
  cases order <;>
    simp [bytes, number, Bytes.ofBigEndian, Bytes.ofLittleEndian_littleEndian,
      Nat.mod_eq_of_lt hn]

/-- Bytes hold less than their width allows, in either order. -/
theorem number_lt (order : ByteOrder) (front : Bytes) :
    order.number front < 256 ^ front.length := by
  cases order with
  | big => simpa [number, Bytes.ofBigEndian] using Bytes.ofLittleEndian_lt front.reverse
  | little => exact Bytes.ofLittleEndian_lt front

/-- **One written form.**  Bytes that hold a number are its bytes. -/
theorem eq_bytes_of_number (order : ByteOrder) (front : Bytes) :
    front = order.bytes front.length (order.number front) := by
  cases order with
  | big =>
      have h := Bytes.littleEndian_ofLittleEndian front.reverse
      rw [List.length_reverse] at h
      simp [bytes, number, Bytes.ofBigEndian, h]
  | little => exact (Bytes.littleEndian_ofLittleEndian front).symm

/-- A flag is read as an order exactly if it is that order's. -/
theorem ofFlag?_eq_some_iff {flag : UInt8} {order : ByteOrder} :
    ofFlag? flag.toNat = some order ↔ flag = order.flag := by
  constructor
  · intro h
    apply UInt8.toNat_inj.mp
    unfold ofFlag? at h
    split at h
    · cases h
      assumption
    · cases h
      assumption
    · cases h
  · rintro rfl
    cases order <;> rfl

end Geometry.ByteOrder

end RecordStore
