import Mathlib
import RecordStore.Proofs.Collection.Giving

/-!
# One node of each cache

An operation on collections is a course of gets and releases that depends on
nothing but what the gets give (`Carries`).  What it holds at any moment is its
`Hand`, in which there are no two items of the same cache: a get of a collection
is made only while nothing in hand is held in its cache.

That is enough to say what an operation does to the references that are out
(`Carries.run`): they are those there were, and those of the hand that it ends
with.  And if there was room in each of its collections, no get on the way has
come away empty-handed.
-/

namespace RecordStore

/-- Items that an operation holds, the last one first, with the addresses that
it got them at.  No two of them are held in the same cache. -/
structure Hand where
  loans : List (UInt32 × Item)
  single : (loans.filterMap fun loan => loan.2.cacheId?).Nodup

namespace Hand

/-- Nothing is held. -/
def empty : Hand :=
  ⟨[], .nil⟩

/-- The items that are held. -/
def items (hand : Hand) : List Item :=
  hand.loans.map Prod.snd

/-- Is nothing held in a cache? -/
def Free (hand : Hand) (id? : Option Nat) : Prop :=
  ∀ id, id? = some id → id ∉ hand.loans.filterMap fun loan => loan.2.cacheId?

/-- One more item is held. -/
def take (hand : Hand) (address : UInt32) (item : Item) (hfree : hand.Free item.cacheId?) :
    Hand where
  loans := (address, item) :: hand.loans
  single := by
    cases hid : item.cacheId? with
    | none => simpa [List.filterMap_cons, hid] using hand.single
    | some id =>
        rw [List.filterMap_cons_some (by exact hid)]
        exact List.nodup_cons.mpr ⟨hfree id hid, hand.single⟩

variable {hand : Hand} {c : Collection} {key : Key} {item : Item}

theorem free_empty (id? : Option Nat) : empty.Free id? := by
  intro id _
  exact List.not_mem_nil

theorem Free.clear (h : hand.Free c.cacheId?) : c.Clear hand.items := by
  intro item hitem place hplace hid
  obtain ⟨loan, hloan, rfl⟩ := List.mem_map.mp hitem
  exact h place.1 hid (List.mem_filterMap.mpr ⟨loan, hloan, by rw [Item.cacheId?, hplace]; rfl⟩)

/-- An item that is got of a collection is held in its cache, or nowhere. -/
theorem Free.given (h : hand.Free c.cacheId?) (hgives : c.Gives key (.ok (some item))) :
    hand.Free item.cacheId? := by
  rw [hgives.cache item (List.mem_singleton_self item)]
  split
  · intro id hid
    cases hid
  · exact h

/-- An item is not in the way of other caches. -/
theorem Free.take {id? : Option Nat} (h : hand.Free id?) {address : UInt32}
    {hfree : hand.Free item.cacheId?} (hother : ∀ id, id? = some id → item.cacheId? ≠ some id) :
    (hand.take address item hfree).Free id? := by
  intro id hid hmem
  obtain ⟨loan, hloan, hsame⟩ := List.mem_filterMap.mp hmem
  rcases List.mem_cons.mp hloan with rfl | hrest
  · exact hother id hid hsame
  · exact h id hid (List.mem_filterMap.mpr ⟨loan, hrest, hsame⟩)

end Hand

/-- How an operation is carried out that holds some items, and what comes of it.
It gets records of the collections `used`, one only while nothing is held in its
cache, and releases the last item that it got.  It may look at what bounds a
cache, and leave storage to `others`, if there are any, who use some collections
and keep nothing.  Besides the items in hand, `post` is told whether a get has
come away empty-handed. -/
inductive Carries {α : Type} (used : List Collection) (others : Option (List Collection))
    (post : Bool → Hand → α → Prop) :
    Bool → Hand → (Storage → α × Storage) → Prop
  | done {starved : Bool} {hand : Hand} (a : α) (h : post starved hand a) :
      Carries used others post starved hand fun storage => (a, storage)
  | look {starved : Bool} {hand : Hand} (c : Collection)
      {rest : StoreError → Storage → α × Storage}
      (h : ∀ e, Carries used others post starved hand (rest e)) :
      Carries used others post starved hand fun storage => rest (c.exhausted storage) storage
  | get {starved : Bool} {hand : Hand} {c : Collection} (hc : c ∈ used)
      (hfree : hand.Free c.cacheId?) (key : Key)
      (rest : Except StoreError (Option Item) → Storage → α × Storage)
      (hsome : ∀ item, (hgives : c.Gives key (.ok (some item))) →
        Carries used others post starved (hand.take key.address item (hfree.given hgives))
          (rest (.ok (some item))))
      (hnone : Carries used others post true hand (rest (.ok none)))
      (herror : ∀ e, c.Gives key (.error e) →
        Carries used others post starved hand (rest (.error e))) :
      Carries used others post starved hand fun storage =>
        rest ((c.get key).run storage).1 ((c.get key).run storage).2
  | release {starved : Bool} {hand : Hand} {address : UInt32} {item : Item}
      {hfree : hand.Free item.cacheId?} {rest : Storage → α × Storage}
      (h : Carries used others post starved hand rest) :
      Carries used others post starved (hand.take address item hfree) fun storage =>
        rest (storage.release item)
  | leave {starved : Bool} {hand : Hand} {cs : List Collection} (hcs : others = some cs) {β : Type}
      {other : Storage → β × Storage} (hother : KeepsNothing cs other)
      {rest : β → Storage → α × Storage}
      (h : ∀ b, Carries used others post starved hand (rest b)) :
      Carries used others post starved hand fun storage =>
        rest (other storage).1 (other storage).2

namespace Carries

section

variable {α β : Type} {used : List Collection} {others : Option (List Collection)}
  {post post' : Bool → Hand → α → Prop} {starved : Bool} {hand : Hand}
  {op : Storage → α × Storage}

theorem mono (h : Carries used others post starved hand op)
    (hpost : ∀ starved hand a, post starved hand a → post' starved hand a) :
    Carries used others post' starved hand op := by
  induction h with
  | done a h => exact .done a (hpost _ _ _ h)
  | look c _ ih => exact .look c ih
  | get hc hfree key rest _ _ _ ihsome ihnone iherror =>
      exact .get hc hfree key rest ihsome ihnone iherror
  | release _ ih => exact .release ih
  | leave hcs hother _ ih => exact .leave hcs hother ih

/-- **One operation after another.** -/
theorem andThen {post : Bool → Hand → β → Prop} (rest : α → Storage → β × Storage)
    (h : Carries used others
      (fun starved hand a => Carries used others post starved hand (rest a)) starved hand op) :
    Carries used others post starved hand fun storage => rest (op storage).1 (op storage).2 := by
  induction h with
  | done a h => exact h
  | look c _ ih => exact .look c ih
  | get hc hfree key next _ _ _ ihsome ihnone iherror =>
      exact .get hc hfree key
        (fun result storage => rest (next result storage).1 (next result storage).2)
        ihsome ihnone iherror
  | release _ ih => exact .release ih
  | leave hcs hother _ ih => exact .leave hcs hother ih

theorem congr {op' : Storage → α × Storage} (h : Carries used others post starved hand op)
    (hsame : ∀ storage, op' storage = op storage) :
    Carries used others post starved hand op' := by
  obtain rfl : op' = op := funext hsame
  exact h

end

section

variable {α : Type} {used opened : List Collection} {others : Option (List Collection)}
  {post : Bool → Hand → α → Prop} {starved : Bool} {hand : Hand} {op : Storage → α × Storage}
  {dims : Nat → Nat × Nat} {start storage : Storage} {items : List Item}

/-- **What an operation leaves**: the references there were, and those of the
items in hand.  Where there was room, no get has come away empty-handed. -/
theorem run (h : Carries used others post starved hand op) (hused : used ⊆ opened)
    (hothers : ∀ cs, others = some cs → cs ⊆ opened) (hstart : Accounted dims opened start items)
    (hnow : Accounted dims opened storage (hand.items ++ items))
    (hkeeps : ∀ loan ∈ hand.loans, storage.Keeps loan.1 loan.2) :
    ∃ starved' hand', post starved' hand' (op storage).1 ∧
      Accounted dims opened (op storage).2 (hand'.items ++ items) ∧
      (∀ loan ∈ hand'.loans, (op storage).2.Keeps loan.1 loan.2) ∧
      ((∀ c ∈ used, c.HasRoom start) → starved = false → starved' = false) := by
  induction h generalizing storage with
  | @done starved hand a h => exact ⟨starved, hand, h, hnow, hkeeps, fun _ hstarved => hstarved⟩
  | look c _ ih => exact ih (c.exhausted storage) hnow hkeeps
  | @get starved hand c hc hfree key rest _ _ _ ihsome ihnone iherror =>
      dsimp only
      have hgives := hnow.gives (hused hc) key
      have hafter := hnow.get (hused hc) key
      have hgiven : ∀ item ∈ given ((c.get key).run storage).1,
          ((c.get key).run storage).2.Keeps key.address item :=
        fun _ hitem => hnow.keeps_given (hused hc) key hitem
      have hheld : ∀ loan ∈ hand.loans, ((c.get key).run storage).2.Keeps loan.1 loan.2 := by
        intro loan hloan
        exact hnow.keeps_get (hused hc) key
          (List.mem_append_left items (List.mem_map_of_mem hloan)) (hkeeps loan hloan)
      have hroom := fun hroom => hstart.get_ne_none hnow (hused hc) hfree.clear hroom key
      rcases hget : (c.get key).run storage with ⟨e | _ | item, after⟩
      · rw [hget] at hgives hafter hheld
        exact iherror e hgives hafter hheld
      · rw [hget] at hafter hheld hroom
        obtain ⟨starved', hand', hpost, hrest, hloans, -⟩ := ihnone hafter hheld
        exact ⟨starved', hand', hpost, hrest, hloans, fun hall _ => absurd rfl (hroom (hall c hc))⟩
      · rw [hget] at hgives hafter hheld hgiven
        refine ihsome item hgives hafter ?_
        intro loan hloan
        rcases List.mem_cons.mp hloan with rfl | hmem
        · exact hgiven item (List.mem_singleton_self item)
        · exact hheld loan hmem
  | @release starved hand address item hfree rest _ ih =>
      have hafter := hnow.release (List.mem_cons_self (a := item))
      rw [Hand.items, Hand.take, List.map_cons, List.cons_append, List.erase_cons_head] at hafter
      refine ih hafter ?_
      intro loan hloan
      exact (hkeeps loan (List.mem_cons_of_mem _ hloan)).release item
  | @leave starved hand cs hcs β other hother rest _ ih =>
      have huse := hother storage
      have hopened := hothers cs hcs
      refine ih (other storage).1 (huse.accounted hopened hnow) ?_
      intro loan hloan
      exact huse.keeps hopened hnow (List.mem_append_left items (List.mem_map_of_mem hloan))
        (hkeeps loan hloan)

end

end Carries

/-! ## Operations that settle what they got -/

/-- An operation has released what it got, and reports that a record could not
be had only if that is so. -/
def Settled {α : Type} (hand : Hand) (starved : Bool) (after : Hand)
    (result : Except StoreError α) : Prop :=
  after = hand ∧ ∀ e, result = .error e → e.isExhaustion → starved

/-- An operation on the collections `used` that releases what it gets, and holds
nothing else in the meantime than what is in hand already. -/
def Settles {α : Type} (used : List Collection) (hand : Hand) (op : Access α) : Prop :=
  ∀ starved, Carries used none (Settled hand) starved hand op.run

section

variable {α β : Type} {used : List Collection} {hand : Hand} {c : Collection}

theorem settles_result {result : Except StoreError α} (h : NeverExhausts result) (starved : Bool) :
    Settled hand starved hand result := by
  refine ⟨rfl, ?_⟩
  intro e he hexhausted
  rw [h e he] at hexhausted
  cases hexhausted

theorem settles_lift {result : Except StoreError α} (h : NeverExhausts result) :
    Settles used hand (liftM result : Access α) := by
  intro starved
  refine (Carries.done result (settles_result h starved)).congr ?_
  intro storage
  cases result <;> rfl

theorem settles_pure (a : α) : Settles used hand (pure a : Access α) :=
  settles_lift (neverExhausts_ok a)

theorem settles_throw {e : StoreError} (h : e.isExhaustion = false) :
    Settles used hand (throw e : Access α) :=
  settles_lift (neverExhausts_error h)

/-- **What settles at each step settles.** -/
theorem Settles.bind {x : Access α} {f : α → Access β} (hx : Settles used hand x)
    (hf : ∀ a, Settles used hand (f a)) : Settles used hand (x >>= f) := by
  intro starved
  have hafter : Carries used none (fun starved after (result : Except StoreError α) =>
      Carries used none (Settled hand) starved after fun storage =>
        match result with
        | .ok a => (f a).run storage
        | .error e => (.error e, storage)) starved hand x.run := by
    refine (hx starved).mono ?_
    rintro starved after (e | a) ⟨rfl, herror⟩
    · exact .done _ ⟨rfl, fun e' he => herror e' (congrArg _ (Except.error.inj he))⟩
    · exact hf a starved
  refine (hafter.andThen _).congr ?_
  intro storage
  rw [ExceptT.run_bind]
  show StateT.bind x.run _ storage = _
  unfold StateT.bind
  rcases x.run storage with ⟨e | a, between⟩ <;> rfl

theorem Settles.map {x : Access α} (hx : Settles used hand x) (f : α → β) :
    Settles used hand (f <$> x) := by
  rw [map_eq_pure_bind]
  exact hx.bind fun a => settles_pure (f a)

/-- How fetching bytes goes on after the get: they are copied, and the record is
released. -/
def copied (c : Collection) (result : Except StoreError (Option Item)) (storage : Storage) :
    Except StoreError Bytes × Storage :=
  match result with
  | .ok (some item) => (.ok item.bytes, storage.release item)
  | .ok none => (.error (c.exhausted storage), storage)
  | .error e => (.error e, storage)

theorem run_bytesOf (c : Collection) (key : Key) (storage : Storage) :
    (c.bytesOf key).run storage =
      copied c ((c.get key).run storage).1 ((c.get key).run storage).2 := by
  have hget : (c.get key).run storage = c.get key storage := rfl
  show (c.bytesOf key) storage = _
  unfold Collection.bytesOf Collection.fetch
  simp only [bind, ExceptT.bind, ExceptT.mk, StateT.bind, hget]
  rcases c.get key storage with ⟨e | _ | item, after⟩ <;> rfl

/-- **Fetching bytes** settles. -/
theorem settles_bytesOf (hc : c ∈ used) (hfree : hand.Free c.cacheId?) (key : Key)
    (hsizing : ∀ header, NeverExhausts (key.sizing.fullLength header)) :
    Settles used hand (c.bytesOf key) := by
  intro starved
  have hcourse : Carries used none (Settled hand) starved hand _ :=
    .get hc hfree key (copied c)
      (fun item _ => .release (.done _ (settles_result (neverExhausts_ok item.bytes) starved)))
      (.look c fun e => .done _ ⟨rfl, fun _ _ _ => rfl⟩)
      (fun e hgives =>
        .done _ (settles_result (neverExhausts_error (hgives.error hsizing e rfl)) starved))
  exact hcourse.congr (run_bytesOf c key)

end

end RecordStore
