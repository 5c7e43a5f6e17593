import Mathlib
import RecordStore.Proofs.Collection.Lockstep

/-!
# Walks over records that are known

If a collection tells the records from an address on, one starting where the one
before it ends, up to the end of the collection, and each of them can be made
into a row (`Walk.Reads`), then a walk from that address on takes all of these
rows and ends without a failure (`take_of_reads`).
-/

namespace RecordStore.Walk

/-- The rows of the records from an address on, up to the end of a collection of
so many bytes. -/
inductive Reads {α : Type} (answer : UInt32 → Except StoreError Bytes)
    (row : UInt32 → Bytes → Except StoreError α) (size : Nat) : Nat → List α → Prop
  | done : Reads answer row size size []
  | record {address : Nat} {bytes : Bytes} {first : α} {rows : List α}
      (hanswer : answer (UInt32.ofNat address) = .ok bytes) (hpos : 0 < bytes.length)
      (hrow : row (UInt32.ofNat address) bytes = .ok first)
      (h : Reads answer row size (address + bytes.length) rows) :
      Reads answer row size address (first :: rows)

variable {α : Type} {walk : Walk} {answer : UInt32 → Except StoreError Bytes}
  {row : UInt32 → Bytes → Except StoreError α} {size address most : Nat} {rows : List α}
  {standing : Storage → Prop} {storage : Storage}

/-- No more rows than bytes. -/
theorem Reads.length_le (h : Reads answer row size address rows) :
    address + rows.length ≤ size := by
  induction h with
  | done => exact Nat.le_refl size
  | record _ hpos _ _ ih =>
      rw [List.length_cons]
      omega

/-- **All rows are taken**, in order, and nothing else comes of the walk. -/
theorem take_of_reads (h : Reads answer row size address rows) (hsize : size < 2 ^ 32)
    (hfixed : walk.collection.layout.isFixed = false) (hlimit : walk.collection.size = size)
    (hnext : walk.next.toNat = address) (hdone : walk.done = false)
    (hgoing : walk.exhausted = false) (htells : walk.collection.Tells walk.sizing answer standing)
    (hstanding : standing storage) (hmost : rows.length < most) :
    (take row false most walk storage).1 = ⟨rows, [], none, false⟩ := by
  have hwalk : walk.limit = size := by
    rw [limit, if_neg (ne_true_of_eq_false hfixed), hlimit]
  induction h generalizing walk storage most with
  | done =>
      have hover : walk.Over := .inr (by omega)
      rw [take_of_over hover, hgoing]
  | @record address bytes first rows hanswer hpos hrow h ih =>
      have hinside := h.length_le
      have hopen : ¬ walk.Over := by
        rintro (hover | hover)
        · rw [hdone] at hover
          cases hover
        · omega
      cases most with
      | zero => cases hmost
      | succ most =>
          have haddress : UInt32.ofNat address = walk.next := by
            rw [← hnext, UInt32.ofNat_toNat]
          rw [haddress] at hanswer hrow
          have hgives := htells.gives storage hstanding walk.next
          rw [hanswer] at hgives
          obtain ⟨item, hgot, rfl⟩ := eq_ok_of_bytesGiven hgives
          have hafter := htells.keeps storage hstanding walk.next item hgot
          have hstride : walk.stride item = item.bytes.length :=
            if_neg (ne_true_of_eq_false hfixed)
          have hpast : (walk.past item).next.toNat = address + item.bytes.length := by
            show (UInt32.ofNat (min (walk.next.toNat + walk.stride item) 4294967295)).toNat = _
            rw [hstride, hnext, UInt32.toNat_ofNat_of_lt' (by rw [UInt32.size]; omega)]
            omega
          have hleft : (walk.past item).done = false := by
            show decide (walk.stride item = 0) = false
            rw [hstride]
            exact decide_eq_false (Nat.ne_of_gt hpos)
          have hrest : (take row false most (walk.past item)
              (((walk.collection.get ⟨walk.next, walk.sizing⟩).run storage).2.release item)).1 =
                ⟨rows, [], none, false⟩ :=
            ih hfixed hlimit hpast hleft hgoing htells hafter (Nat.lt_of_succ_lt_succ hmost) hwalk
          rw [take_succ hopen, hgot]
          unfold passed
          simp only [hrow, hrest]
          rfl

end RecordStore.Walk
