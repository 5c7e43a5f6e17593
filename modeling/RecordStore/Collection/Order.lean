import RecordStore.Collection.Basic
import RecordStore.Value.Compare

/-!
# Orders of records

What sorted collections are sorted by: the integer in the first four bytes of
a record, or the record as a word of a dictionary.  Of two records that ascend,
the first is not above what is looked for unless the second is, and the second
is not below it unless the first is (`compare_of_ascends`); that is what a
search by halves goes by.
-/

namespace RecordStore

/-- What records are looked for by. -/
inductive RecordOrder
  /-- A 32 bit integer at the front. -/
  | signed (target : Int)
  /-- A 32 bit integer without a sign at the front. -/
  | unsigned (target : Int)
  /-- The whole record. -/
  | bytes (target : Bytes)
  deriving DecidableEq, Repr

namespace RecordOrder

/-- How a record is ordered relative to what is looked for. -/
def compare (order : RecordOrder) (record : Bytes) : Except StoreError Ordering :=
  let front (number : Nat → Int) (target : Int) :=
    match Bytes.leading? 4 record with
    | some n => .ok (Ord.compare (number n) target)
    | none => .error (.invalid (.other "short record"))
  match order with
  | .signed target => front (fun n => (Int32.ofNat n).toInt) target
  | .unsigned target => front (fun n => n) target
  | .bytes target => .ok (Bytes.order record target)

/-- Two records that are sorted: both have what is looked at, and the second has
no less. -/
def Ascends (order : RecordOrder) (earlier later : Bytes) : Prop :=
  match order with
  | .signed _ => ∃ m n, Bytes.leading? 4 earlier = some m ∧ Bytes.leading? 4 later = some n ∧
      (Int32.ofNat m).toInt ≤ (Int32.ofNat n).toInt
  | .unsigned _ => ∃ m n, Bytes.leading? 4 earlier = some m ∧ Bytes.leading? 4 later = some n ∧
      m ≤ n
  | .bytes _ => (Bytes.order earlier later).isLE

/-- What is sorted lies on the sides of anything in order. -/
theorem sides_of_isLE {α : Type} [Ord α] [Std.TransOrd α] {a b : α} (h : (Ord.compare a b).isLE)
    (target : α) :
    (Ord.compare b target = .lt → Ord.compare a target = .lt) ∧
      (Ord.compare a target = .gt → Ord.compare b target = .gt) := by
  constructor
  · exact Std.TransCmp.lt_of_isLE_of_lt h
  · have hswap : Ord.compare b a = (Ord.compare a b).swap := Std.OrientedCmp.eq_swap
    have hback : (Ord.compare b a).isGE := by
      rw [hswap, Ordering.isGE_swap]
      exact h
    exact Std.TransCmp.gt_of_isGE_of_gt hback

/-- **Sorted records** are compared with anything in order. -/
theorem compare_of_ascends {order : RecordOrder} {earlier later : Bytes}
    (h : order.Ascends earlier later) : ∃ first second,
      order.compare earlier = .ok first ∧ order.compare later = .ok second ∧
        (second = .lt → first = .lt) ∧ (first = .gt → second = .gt) := by
  cases order with
  | signed target =>
      obtain ⟨m, n, hearlier, hlater, hle⟩ := h
      refine ⟨Ord.compare (Int32.ofNat m).toInt target, Ord.compare (Int32.ofNat n).toInt target,
        ?_, ?_, sides_of_isLE (Int.isLE_compare.mpr hle) target⟩
      · simp only [compare, hearlier]
      · simp only [compare, hlater]
  | unsigned target =>
      obtain ⟨m, n, hearlier, hlater, hle⟩ := h
      refine ⟨Ord.compare (m : Int) target, Ord.compare (n : Int) target, ?_, ?_,
        sides_of_isLE (Int.isLE_compare.mpr (Int.ofNat_le.mpr hle)) target⟩
      · simp only [compare, hearlier]
      · simp only [compare, hlater]
  | bytes target =>
      refine ⟨_, _, rfl, rfl, ?_⟩
      rw [Ascends, Bytes.order_eq_compare] at h
      simp only [Bytes.order_eq_compare]
      exact sides_of_isLE h target

end RecordOrder

end RecordStore
