import Mathlib
import RecordStore.Proofs.Collection.Refusing
import RecordStore.Proofs.Collection.Releasing

/-!
# Walks in lockstep

A collection tells the same of its records for as long as it is asked for one at
a time, each sized alike, and each is released before the next is asked for
(`Collection.Tells`).  However a collection in a file is held, it tells what the
file holds (`tells_ofFile`).

So walks of two collections that tell the same go in lockstep, from the first
record to the failure that ends them, and neither is ever stopped for want of a
node (`take_eq_take`).
-/

namespace RecordStore

/-- What a collection has to say of the record at each address, when records are
sized in one way and nothing else is held, in storage of which `standing`
holds. -/
structure Collection.Tells (c : Collection) (sizing : Sizing)
    (answer : UInt32 → Except StoreError Bytes) (standing : Storage → Prop) : Prop where
  gives : ∀ storage, standing storage → ∀ address,
    bytesGiven ((c.get ⟨address, sizing⟩).run storage).1 = (answer address).map some
  keeps : ∀ storage, standing storage → ∀ address item,
    ((c.get ⟨address, sizing⟩).run storage).1 = .ok (some item) →
      standing (((c.get ⟨address, sizing⟩).run storage).2.release item)

/-- Storage in which nothing is held of a collection, and all that has been asked
of it since `start` was sized in one way. -/
def Collection.Asked (c : Collection) (start : Storage) (sizing : Sizing) (storage : Storage) :
    Prop :=
  ∃ keys, Visited c start keys storage [] ∧ ∀ key ∈ keys, key.sizing = sizing

namespace Collection

variable {c : Collection} {start storage : Storage} {sizing : Sizing}

theorem asked_start : c.Asked start sizing start := by
  refine ⟨[], .start, ?_⟩
  intro key hkey
  cases hkey

/-- One more record is asked for and released. -/
theorem Asked.again (h : c.Asked start sizing storage) {address : UInt32} {item : Item}
    (hgot : ((c.get ⟨address, sizing⟩).run storage).1 = .ok (some item)) :
    c.Asked start sizing (((c.get ⟨address, sizing⟩).run storage).2.release item) := by
  obtain ⟨keys, hvisited, hsizing⟩ := h
  have hget := hvisited.get ⟨address, sizing⟩
  rw [hgot] at hget
  have hrelease := hget.release (List.mem_singleton_self item)
  refine ⟨⟨address, sizing⟩ :: keys, ?_, ?_⟩
  · rw [show ([] : List Item) = (given (.ok (some item)) ++ []).erase item from
      (List.erase_cons_head item []).symm]
    exact hrelease
  · exact List.forall_mem_cons.mpr ⟨rfl, hsizing⟩

/-- **However it is held**, a collection in a file tells what streaming reads. -/
theorem tells_ofFile {config : CollectionConfig} {header : Header} {position : Nat}
    (hready : storage.Ready) (hlimit : storage.file.contents.length < Handle.positionLimit)
    (hfits : header.Fits)
    (hopen : Collection.ofFile config header storage = .ok ((c, position), start))
    (sizing : Sizing) :
    c.Tells sizing (fun address => Source.reading ⟨header.start, none⟩ (Layout.ofHeader header)
      storage.file ⟨address, sizing⟩) (c.Asked start sizing) where
  gives := by
    rintro now ⟨keys, hvisited, hsizing⟩ address
    have hundisturbed : c.Undisturbed keys ⟨address, sizing⟩ := by
      refine .inr ?_
      intro other hother _
      rw [hsizing other hother]
      exact ⟨rfl, fun _ => rfl⟩
    exact hvisited.get_at_rest hready hlimit hfits hopen hundisturbed
  keeps := fun _ hasked _ _ hgot => hasked.again hgot

end Collection

/-! ## Walks -/

namespace Walk

/-- Walks that stand alike in collections that are laid out alike, and have not
been stopped. -/
structure Abreast (walk other : Walk) : Prop where
  layout : other.collection.layout = walk.collection.layout
  sizing : other.sizing = walk.sizing
  next : other.next = walk.next
  done : other.done = walk.done
  going : walk.exhausted = false
  going_other : other.exhausted = false

variable {α : Type} {walk other : Walk}

theorem Abreast.over_iff (h : walk.Abreast other) : other.Over ↔ walk.Over := by
  unfold Over limit Collection.count Collection.size
  rw [h.layout, h.next, h.done]

/-- Records of the same bytes are passed alike. -/
theorem Abreast.past (h : walk.Abreast other) {item item' : Item}
    (hbytes : item'.bytes = item.bytes) : (walk.past item).Abreast (other.past item') := by
  have hstride : other.stride item' = walk.stride item := by
    unfold stride
    rw [h.layout, hbytes]
  refine ⟨h.layout, h.sizing, ?_, ?_, h.going, h.going_other⟩
  · show UInt32.ofNat _ = UInt32.ofNat _
    rw [h.next, hstride]
  · show decide _ = decide _
    rw [hstride]

/-- **Walks that are told the same report the same**, and are not stopped. -/
theorem take_eq_take {answer : UInt32 → Except StoreError Bytes}
    {standing standing' : Storage → Prop} {storage storage' : Storage}
    (row : UInt32 → Bytes → Except StoreError α) (most : Nat) (habreast : walk.Abreast other)
    (htells : walk.collection.Tells walk.sizing answer standing)
    (htells' : other.collection.Tells other.sizing answer standing')
    (hstanding : standing storage) (hstanding' : standing' storage') :
    (take row false most walk storage).1 = (take row false most other storage').1 ∧
      (take row false most walk storage).1.exhausted = false := by
  induction most generalizing walk other storage storage' with
  | zero =>
      unfold take
      rw [habreast.going, habreast.going_other]
      exact ⟨rfl, rfl⟩
  | succ most ih =>
      by_cases hover : walk.Over
      · rw [take_of_over hover, take_of_over (habreast.over_iff.mpr hover), habreast.going,
          habreast.going_other]
        exact ⟨rfl, rfl⟩
      · have hgives := htells.gives storage hstanding walk.next
        have hgives' := htells'.gives storage' hstanding' other.next
        rw [habreast.next] at hgives'
        rw [take_succ hover, take_succ (fun h => hover (habreast.over_iff.mp h)), habreast.next]
        cases hanswer : answer walk.next with
        | error e =>
            rw [hanswer] at hgives hgives'
            rw [eq_error_of_bytesGiven hgives, eq_error_of_bytesGiven hgives']
            unfold passed
            rw [habreast.going, habreast.going_other]
            exact ⟨rfl, rfl⟩
        | ok bytes =>
            rw [hanswer] at hgives hgives'
            obtain ⟨item, hgot, hbytes⟩ := eq_ok_of_bytesGiven hgives
            obtain ⟨item', hgot', hbytes'⟩ := eq_ok_of_bytesGiven hgives'
            have hafter := htells.keeps storage hstanding walk.next item hgot
            have hafter' := htells'.keeps storage' hstanding' walk.next item' hgot'
            rw [hgot, hgot']
            unfold passed
            simp only [habreast.next, hbytes, hbytes']
            cases row walk.next bytes with
            | error e =>
                rw [habreast.going, habreast.going_other]
                exact ⟨rfl, rfl⟩
            | ok first =>
                obtain ⟨hsame, hgoing⟩ := ih (habreast.past (hbytes'.trans hbytes.symm)) htells
                  htells' hafter hafter'
                exact ⟨congrArg (Report.cons first) hsame, hgoing⟩

/-- Each row of a report was made of a record. -/
theorem rows_take (row : UInt32 → Bytes → Except StoreError α) (keep : Bool) (most : Nat)
    (walk : Walk) (storage : Storage) : ∀ first ∈ (take row keep most walk storage).1.rows,
      ∃ address bytes, row address bytes = .ok first := by
  induction most generalizing walk storage with
  | zero =>
      intro first hfirst
      cases hfirst
  | succ most ih =>
      unfold take
      rcases walk.step storage with ⟨⟨⟨address, item⟩ | e | _, walk⟩, after⟩
      · simp only
        cases hrow : row address item.bytes with
        | error e =>
            intro first hfirst
            cases hfirst
        | ok made =>
            intro first hfirst
            rcases List.mem_cons.mp hfirst with rfl | hrest
            · exact ⟨address, item.bytes, hrow⟩
            · exact ih _ _ first hrest
      · intro first hfirst
        cases hfirst
      · intro first hfirst
        cases hfirst

end Walk

end RecordStore
