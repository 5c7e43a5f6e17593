import Mathlib
import RecordStore.Proofs.Collection.Releasing

/-!
# Any handle will do

Collections share a pool of handles, and a read takes one and gives it back
before anything else is done.  So while nobody reads the pool is at rest
(`HandlePool.Rested`): no handle is out, and there has never been need for a
second one.

Storage may then differ in the handle that is idle, in where that one was left,
and in how many might be opened (`Storage.Alike`), and nobody notices
(`Unaware`), nor has anybody to wait for a handle (`Granted`).  Gets and releases
do not, nor does what is made of them: searches, with whatever records are
compared, and walks.
-/

namespace RecordStore

/-! ## Pools at rest -/

/-- No handle is out, and no more than one was ever opened. -/
structure HandlePool.Rested (pool : HandlePool) : Prop where
  concurrency_pos : 0 < pool.concurrency
  opened_eq : pool.opened = pool.idle.length
  issued_eq : pool.issued = pool.opened
  opened_le : pool.opened ≤ 1

namespace HandlePool

theorem rested_create {concurrency : Nat} {pool : HandlePool}
    (h : HandlePool.create concurrency = .ok pool) : pool.Rested := by
  obtain ⟨hpos, rfl⟩ := create_eq_ok h
  exact ⟨hpos, rfl, rfl, Nat.zero_le 1⟩

theorem rested_one {concurrency : Nat} (h : 0 < concurrency) (handle : Handle) :
    (⟨concurrency, [handle], 1, 1⟩ : HandlePool).Rested :=
  ⟨h, rfl, rfl, Nat.le_refl 1⟩

/-- A pool at rest is as it was made, or has one handle, which is idle. -/
theorem Rested.eq_or_eq {pool : HandlePool} (h : pool.Rested) :
    pool = ⟨pool.concurrency, [], 0, 0⟩ ∨
      ∃ handle, pool = ⟨pool.concurrency, [handle], 1, 1⟩ := by
  obtain ⟨concurrency, idle, opened, issued⟩ := pool
  obtain ⟨-, hopened, hissued, hle⟩ := h
  simp only at hopened hissued hle
  subst hissued hopened
  match idle with
  | [] => exact .inl rfl
  | [handle] => exact .inr ⟨handle, rfl⟩
  | _ :: _ :: _ => simp at hle

/-- **Nobody waits** for a handle of a pool at rest. -/
theorem Rested.checkOut_ne_none {pool : HandlePool} (h : pool.Rested) (file : DataFile) :
    (pool.checkOut file).1 ≠ .ok none := by
  have hpos := h.concurrency_pos
  rcases h.eq_or_eq with hpool | ⟨handle, hpool⟩
  · rw [hpool]
    unfold checkOut
    simp only [hpos, if_true]
    split <;> simp
  · rw [hpool]
    simp [checkOut]

end HandlePool

/-- Storage that differs in nothing but handles, none of which is out, and that
can do without opening the file exactly if the other can. -/
structure Storage.Alike (storage other : Storage) : Prop where
  file : other.file = storage.file
  caches : other.caches = storage.caches
  rested : storage.pool.Rested
  rested_other : other.pool.Rested
  ready : storage.Ready ↔ other.Ready

theorem Storage.Alike.refl {storage : Storage} (h : storage.pool.Rested) :
    storage.Alike storage :=
  ⟨rfl, rfl, h, h, .rfl⟩

theorem Storage.Alike.cache?_eq {storage other : Storage} (h : storage.Alike other) (id : Nat) :
    other.cache? id = storage.cache? id := by
  unfold Storage.cache?
  rw [h.caches]

theorem Storage.Alike.setCache {storage other : Storage} (h : storage.Alike other) (id : Nat)
    (cache : Cache UInt32) : (storage.setCache id cache).Alike (other.setCache id cache) := by
  refine ⟨h.file, ?_, h.rested, h.rested_other, h.ready⟩
  unfold Storage.setCache
  rw [h.caches]

/-- The same storage with every idle handle at a position. -/
def Storage.moved (storage : Storage) (position : Nat) : Storage :=
  { storage with
    pool := { storage.pool with idle := storage.pool.idle.map fun h => { h with position } } }

/-- It is of no concern where the idle handle was left. -/
theorem Storage.alike_moved {storage : Storage} (h : storage.pool.Rested) (position : Nat) :
    storage.Alike (storage.moved position) where
  file := rfl
  caches := rfl
  rested := h
  rested_other := by
    refine ⟨h.concurrency_pos, ?_, h.issued_eq, h.opened_le⟩
    show storage.pool.opened = (storage.pool.idle.map _).length
    rw [List.length_map]
    exact h.opened_eq
  ready := by
    show _ ∨ _ ↔ storage.pool.idle.map _ ≠ [] ∨ _
    rw [ne_eq, ne_eq, List.map_eq_nil_iff]
    rfl

/-- An operation that has nothing to do with handles. -/
def HandleFree {α : Type} (op : Storage → α × Storage) : Prop :=
  ∀ (storage : Storage) (pool : HandlePool),
    op { storage with pool } = ((op storage).1, { (op storage).2 with pool })

/-- Nobody waits while an operation is carried out in some storage: it is made of
steps that have nothing to do with handles, and of uses of one, each at a time
when one is idle or there is a place for a new one. -/
inductive Granted : {α : Type} → (Storage → α × Storage) → Storage → Prop
  | free {α : Type} {op : Storage → α × Storage} (h : HandleFree op) (storage : Storage) :
      Granted op storage
  | use {α : Type} (use : DataFile → Handle → Except StoreError α × Handle) {storage : Storage}
      (h : (storage.pool.checkOut storage.file).1 ≠ .ok none) :
      Granted (Storage.withHandle use).run storage
  | andThen {α β : Type} {op : Storage → α × Storage} {rest : α → Storage → β × Storage}
      {storage : Storage} (h : Granted op storage)
      (hrest : Granted (rest (op storage).1) (op storage).2) :
      Granted (fun storage => rest (op storage).1 (op storage).2) storage

/-- An operation neither waits for a handle nor keeps one, and comes to the same in
other storage. -/
structure Indifferent {α : Type} (op : Storage → α × Storage) (storage other : Storage) :
    Prop where
  granted : Granted op storage
  same : (op storage).1 = (op other).1
  alike : (op storage).2.Alike (op other).2

/-- An operation that, when the pool is at rest, is indifferent to handles. -/
def Unaware {α : Type} (op : Storage → α × Storage) : Prop :=
  ∀ ⦃storage other : Storage⦄, storage.Alike other → Indifferent op storage other

/-! ## Operations one after another -/

section

variable {α β : Type} {op : Storage → α × Storage}

theorem unaware_done (a : α) : Unaware fun storage => (a, storage) :=
  fun storage _ halike => ⟨.free (fun _ _ => rfl) storage, rfl, halike⟩

theorem Unaware.andThen (rest : α → Storage → β × Storage) (h : Unaware op)
    (hrest : ∀ a, Unaware (rest a)) :
    Unaware fun storage => rest (op storage).1 (op storage).2 := by
  intro storage other halike
  obtain ⟨hgranted, hsame, hafter⟩ := h halike
  obtain ⟨hthen, hthenSame, hthenAfter⟩ := hrest (op storage).1 hafter
  refine ⟨.andThen hgranted hthen, ?_, ?_⟩
  · rw [← hsame]
    exact hthenSame
  · rw [← hsame]
    exact hthenAfter

theorem Unaware.congr {op' : Storage → α × Storage} (h : Unaware op)
    (hsame : ∀ storage, op' storage = op storage) : Unaware op' := by
  obtain rfl : op' = op := funext hsame
  exact h

/-- Looking at caches changes nothing. -/
theorem unaware_look (look : Array (Cache UInt32) → α) :
    Unaware fun storage => (look storage.caches, storage) := by
  intro storage other halike
  refine ⟨.free (fun _ _ => rfl) storage, ?_, halike⟩
  rw [halike.caches]

theorem unaware_lift (result : Except StoreError α) : Unaware (liftM result : Access α).run := by
  refine (unaware_done result).congr ?_
  intro storage
  cases result <;> rfl

theorem unaware_pure (a : α) : Unaware (pure a : Access α).run :=
  unaware_lift (.ok a)

theorem unaware_throw (e : StoreError) : Unaware (throw e : Access α).run :=
  unaware_lift (.error e)

theorem Unaware.bind {x : Access α} {f : α → Access β} (hx : Unaware x.run)
    (hf : ∀ a, Unaware (f a).run) : Unaware (x >>= f).run := by
  refine (hx.andThen (fun result => match result with
    | .ok a => (f a).run
    | .error e => fun storage => (.error e, storage)) ?_).congr ?_
  · rintro (e | a)
    · exact unaware_done _
    · exact hf a
  · intro storage
    rw [ExceptT.run_bind]
    show StateT.bind x.run _ storage = _
    unfold StateT.bind
    rcases x.run storage with ⟨e | a, after⟩ <;> rfl

theorem Unaware.map {x : Access α} (hx : Unaware x.run) (f : α → β) : Unaware (f <$> x).run := by
  rw [map_eq_pure_bind]
  exact hx.bind fun a => unaware_pure (f a)

theorem unaware_ite {refused : Prop} [Decidable refused] {x y : Access α} (hx : Unaware x.run)
    (hy : Unaware y.run) : Unaware (if refused then x else y).run := by
  split
  · exact hx
  · exact hy

end

/-! ## Handles -/

/-- **A handle is used and given back**, or could not be had because the file
cannot be opened any more. -/
theorem Storage.withHandle_at_rest {α : Type} {storage : Storage} (h : storage.pool.Rested)
    (use : DataFile → Handle → Except StoreError α × Handle) :
    (storage.Ready ∧ ∃ handle, (withHandle use).run storage = ((use storage.file handle).1,
        { storage with
          pool := ⟨storage.pool.concurrency, [(use storage.file handle).2], 1, 1⟩ })) ∨
      (¬ storage.Ready ∧ (withHandle use).run storage = (.error .openFailed, storage)) := by
  have hpos := h.concurrency_pos
  obtain ⟨file, pool, caches⟩ := storage
  simp only at h hpos
  rcases h.eq_or_eq with hpool | ⟨handle, hpool⟩
  · rw [hpool]
    by_cases hnamed : file.named = true
    · refine .inl ⟨.inr ⟨hpos, hnamed⟩, ⟨0, 0⟩, ?_⟩
      simp [withHandle, HandlePool.checkOut, HandlePool.giveBack, ExceptT.run, hpos, hnamed]
    · refine .inr ⟨?_, ?_⟩
      · rintro (hidle | ⟨-, hopens⟩)
        · exact hidle rfl
        · exact hnamed hopens
      · simp [withHandle, HandlePool.checkOut, ExceptT.run, hpos, hnamed]
  · rw [hpool]
    exact .inl ⟨.inl (List.cons_ne_nil _ _), handle, rfl⟩

/-- **A use of which it does not matter where its handle stands** is unaware of
handles. -/
theorem unaware_withHandle {α : Type} {use : DataFile → Handle → Except StoreError α × Handle}
    (huse : ∀ file handle handle', (use file handle).1 = (use file handle').1) :
    Unaware (Storage.withHandle use).run := by
  intro storage other halike
  have hgranted : Granted (Storage.withHandle use).run storage :=
    .use use (halike.rested.checkOut_ne_none storage.file)
  rcases Storage.withHandle_at_rest halike.rested use with ⟨hready, handle, hrun⟩ | ⟨hready, hrun⟩
  · rcases Storage.withHandle_at_rest halike.rested_other use with
      ⟨-, handle', hrun'⟩ | ⟨hunready, -⟩
    · refine ⟨hgranted, ?_, ?_⟩
      · rw [hrun, hrun', halike.file]
        exact huse _ _ _
      · rw [hrun, hrun', halike.file]
        refine ⟨rfl, halike.caches, ?_, ?_, ?_⟩
        · exact HandlePool.rested_one halike.rested.concurrency_pos _
        · exact HandlePool.rested_one halike.rested_other.concurrency_pos _
        · exact ⟨fun _ => .inl (List.cons_ne_nil _ _), fun _ => .inl (List.cons_ne_nil _ _)⟩
    · exact absurd (halike.ready.mp hready) hunready
  · rcases Storage.withHandle_at_rest halike.rested_other use with ⟨hready', -⟩ | ⟨-, hrun'⟩
    · exact absurd (halike.ready.mpr hready') hready
    · refine ⟨hgranted, ?_, ?_⟩
      · rw [hrun, hrun']
      · rw [hrun, hrun']
        exact halike

/-! ## Gets and releases -/

/-- **Streaming** is unaware of handles: it seeks before it reads. -/
theorem unaware_stream (source : Source) (layout : Layout) (key : Key) :
    Unaware (source.stream layout key).run := by
  unfold Source.stream
  refine unaware_ite ?_ ?_
  · refine (unaware_lift _).bind fun place => unaware_withHandle fun file handle handle' => ?_
    rw [Handle.readAt_fst, Handle.readAt_fst]
  · refine (unaware_lift _).bind fun place => unaware_withHandle fun file handle handle' => ?_
    rw [Handle.readSized_fst, Handle.readSized_fst]

/-- **A cache answers for a key** at once, or as soon as the loading has come to
something. -/
theorem Cache.get_at_once_or_loaded {K : Type} [BEq K] [Hashable K] (c : Cache K) (key : K) :
    (∃ out, ∀ {σ : Type} (load : σ → Except StoreError Bytes × σ) (world : σ),
      c.get key load world = (out, world)) ∨
    ∃ done : Except StoreError Bytes → Except StoreError (Option Cache.Ref) × Cache K,
      ∀ {σ : Type} (load : σ → Except StoreError Bytes × σ) (world : σ),
        c.get key load world = (done (load world).1, (load world).2) := by
  cases hresident : (c.shard (c.shardOf key)).resident[key]? with
  | some place =>
      refine .inl ⟨(c.get key (fun world : Unit => (.ok [], world)) ()).1, ?_⟩
      intro σ load world
      simp [Cache.get, Shard.get, hresident, Shard.reuse]
  | none =>
      cases htail : (c.shard (c.shardOf key)).idle.tail with
      | none =>
          refine .inl ⟨(c.get key (fun world : Unit => (.ok [], world)) ()).1, ?_⟩
          intro σ load world
          simp [Cache.get, Shard.get, hresident, htail]
      | some place =>
          refine .inr ⟨fun result => (c.get key (fun world : Unit => (result, world)) ()).1, ?_⟩
          intro σ load world
          rcases hload : load world with ⟨e | bytes, after⟩
          · simp [Cache.get, Shard.get, hresident, htail, hload]
          · simp [Cache.get, Shard.get, hresident, htail, hload]

theorem unaware_setCache {α : Type} (a : α) (id : Nat) (cache : Cache UInt32) :
    Unaware fun storage => (a, storage.setCache id cache) :=
  fun storage _ halike => ⟨.free (fun _ _ => rfl) storage, rfl, halike.setCache id cache⟩

/-- How a get through a source goes on when the caches have been looked at. -/
def sought (source : Source) (layout : Layout) (key : Key) (caches : Array (Cache UInt32)) :
    Storage → Except StoreError (Option Item) × Storage :=
  match source.cache?.bind fun id => caches[id]?.map (id, ·) with
  | none => ((fun bytes => some ⟨bytes, none⟩) <$> source.stream layout key : Access _).run
  | some (id, cache) => fun storage =>
    let ((result, cache), storage) := cache.get key.address (source.stream layout key).run storage
    (result.map (·.map fun ref => ⟨ref.data, some (id, ref.pin)⟩), storage.setCache id cache)

theorem Source.get_sought (source : Source) (layout : Layout) (key : Key) (storage : Storage) :
    (source.get layout key).run storage = sought source layout key storage.caches storage := by
  show Source.get source layout key storage = _
  unfold Source.get sought Storage.cache?
  cases source.cache?.bind fun id => storage.caches[id]?.map (id, ·) <;> rfl

theorem Source.unaware_get (source : Source) (layout : Layout) (key : Key) :
    Unaware (source.get layout key).run := by
  have hstream := unaware_stream source layout key
  refine ((unaware_look id).andThen (sought source layout key) ?_).congr
    (source.get_sought layout key)
  intro caches
  unfold sought
  cases source.cache?.bind fun id => caches[id]?.map (id, ·) with
  | none => exact hstream.map _
  | some found =>
      rcases found.2.get_at_once_or_loaded key.address with ⟨out, hget⟩ | ⟨done, hget⟩
      · simp only [hget]
        exact unaware_setCache _ _ _
      · simp only [hget]
        exact hstream.andThen
          (fun result storage => ((done result).1.map _, storage.setCache found.1 (done result).2))
          fun result => unaware_setCache _ _ _

/-- **A get** is unaware of handles, whatever it comes to. -/
theorem unaware_get (c : Collection) (key : Key) : Unaware (c.get key).run := by
  rcases c.get_course key with ⟨result, hrun⟩ | ⟨source, -, hget⟩
  · exact (unaware_done _).congr hrun
  · rw [hget]
    exact source.unaware_get c.layout key

theorem Storage.Alike.release {storage other : Storage} (h : storage.Alike other) (item : Item) :
    (storage.release item).Alike (other.release item) := by
  unfold Storage.release
  cases item.pin? with
  | none => exact h
  | some place =>
      simp only [h.cache?_eq]
      cases storage.cache? place.1 with
      | none => exact h
      | some cache => exact h.setCache place.1 _

theorem handleFree_release (item : Item) :
    HandleFree fun storage => ((), storage.release item) := by
  intro storage pool
  unfold Storage.release
  cases item.pin? with
  | none => rfl
  | some place =>
      have hcache : Storage.cache? { storage with pool } place.1 = storage.cache? place.1 := rfl
      simp only [hcache]
      cases storage.cache? place.1 <;> rfl

theorem unaware_release (item : Item) : Unaware fun storage => ((), storage.release item) :=
  fun storage _ halike => ⟨.free (handleFree_release item) storage, rfl, halike.release item⟩

/-- An item is released, and then something else is done. -/
theorem Unaware.afterRelease {α : Type} {rest : Storage → α × Storage} (h : Unaware rest)
    (item : Item) : Unaware fun storage => rest (storage.release item) :=
  (unaware_release item).andThen (fun _ => rest) fun _ => h

/-- The error for a record that could not be had is a matter of caches. -/
theorem unaware_exhausted {α : Type} (c : Collection) (f : StoreError → α) :
    Unaware fun storage => (f (c.exhausted storage), storage) :=
  unaware_look fun caches => f (c.exhausted ⟨⟨[], true⟩, ⟨0, [], 0, 0⟩, caches⟩)

theorem unaware_bytesOf (c : Collection) (key : Key) : Unaware (c.bytesOf key).run := by
  refine ((unaware_get c key).andThen (copied c) ?_).congr (run_bytesOf c key)
  rintro (e | _ | item)
  · exact unaware_done _
  · exact unaware_exhausted c _
  · exact (unaware_done _).afterRelease item

/-! ## Searches and walks -/

section

variable {σ α : Type} {c : Collection} {sizing : Sizing}
  {compare : UInt32 → Item → σ × Storage → Except StoreError Ordering × (σ × Storage)}

/-- **A search is as unaware of handles as its comparing is.** -/
theorem unaware_binarySearch
    (hcompare : ∀ index item state, Unaware (restate (compare index item) state))
    (lower upper : UInt32) (state : σ) :
    Unaware (restate (c.binarySearch lower upper sizing compare) state) := by
  induction hleft : upper.toNat + 1 - lower.toNat using Nat.strong_induction_on
    generalizing lower upper state with
  | _ left ih =>
    by_cases h : lower ≤ upper
    · obtain ⟨hlower, hupper⟩ := Bisection.middle_mem h
      refine ((unaware_get c _).andThen (probed c sizing compare lower upper state)
        ?_).congr (restate_binarySearch h state)
      rintro (e | _ | item)
      · exact unaware_done _
      · exact unaware_done _
      · refine (hcompare _ item state).andThen (judged c sizing compare lower upper item) ?_
        rintro ⟨e | order, state⟩
        · exact (unaware_done _).afterRelease item
        · cases order with
          | eq => exact unaware_done _
          | gt =>
              by_cases hfirst : Bisection.middle lower upper = 0
              · refine ((unaware_done (.ok .absent, state)).afterRelease item).congr ?_
                intro storage
                exact if_pos hfirst
              · have hpred := Bisection.toNat_pred hfirst
                have hbelow := ih _ (by omega) lower (Bisection.middle lower upper - 1) state rfl
                refine (hbelow.afterRelease item).congr ?_
                intro storage
                exact if_neg hfirst
          | lt =>
              by_cases hlast : Bisection.middle lower upper = 4294967295
              · refine ((unaware_done (.ok .absent, state)).afterRelease item).congr ?_
                intro storage
                exact if_pos hlast
              · have hsucc := Bisection.toNat_succ hlast
                have habove := ih _ (by omega) (Bisection.middle lower upper + 1) upper state rfl
                refine (habove.afterRelease item).congr ?_
                intro storage
                exact if_neg hlast
    · exact (unaware_done _).congr (restate_binarySearch_of_lt (UInt32.not_le.mp h) state)

/-- How a step of a walk goes on after the get. -/
def advanced (walk : Walk) (result : Except StoreError (Option Item)) (storage : Storage) :
    (WalkStep × Walk) × Storage :=
  (match result with
    | .ok (some item) => (.record walk.next item, walk.past item)
    | .ok none => (.finished, { walk with exhausted := true, done := true })
    | .error e => (.failed e, { walk with done := true }), storage)

/-- One step of a walk is at most one get. -/
theorem unaware_step (walk : Walk) : Unaware walk.step := by
  by_cases hover : walk.Over
  · exact (unaware_done (WalkStep.finished, walk)).congr fun storage => if_pos hover
  · refine ((unaware_get walk.collection ⟨walk.next, walk.sizing⟩).andThen (advanced walk)
      fun result => unaware_done _).congr ?_
    intro storage
    exact Prod.ext (Walk.step_of_not_over hover storage) (Walk.step_snd_of_not_over hover storage)

/-- An item is kept or released, and then something else is done. -/
theorem Unaware.afterKeeping {rest : Storage → α × Storage} (h : Unaware rest) (keep : Bool)
    (item : Item) :
    Unaware fun storage => rest (if keep then storage else storage.release item) := by
  cases keep with
  | true => exact h
  | false => exact h.afterRelease item

/-- How some steps of a walk go on after the first of them. -/
def stepped (row : UInt32 → Bytes → Except StoreError α) (keep : Bool) (most : Nat)
    (out : WalkStep × Walk) (storage : Storage) : Walk.Report α × Storage :=
  match out with
  | (.finished, walk) => (⟨[], [], none, walk.exhausted⟩, storage)
  | (.failed e, walk) => (⟨[], [], some e, walk.exhausted⟩, storage)
  | (.record address item, walk) =>
    let storage := if keep then storage else storage.release item
    match row address item.bytes with
    | .error e => (⟨[], if keep then [item] else [], some e, walk.exhausted⟩, storage)
    | .ok first =>
      let (report, storage) := Walk.take row keep most walk storage
      ({ report with
          rows := first :: report.rows
          held := if keep then item :: report.held else report.held }, storage)

/-- **A walk** is unaware of handles, whether it keeps its records or drops
them. -/
theorem unaware_take (row : UInt32 → Bytes → Except StoreError α) (keep : Bool) (most : Nat)
    (walk : Walk) : Unaware (Walk.take row keep most walk) := by
  induction most generalizing walk with
  | zero => exact unaware_done _
  | succ most ih =>
      refine ((unaware_step walk).andThen (stepped row keep most) ?_).congr ?_
      · rintro ⟨⟨address, item⟩ | e | _, walk⟩
        · cases hrow : row address item.bytes with
          | error e =>
              refine ((unaware_done (⟨[], if keep then [item] else [], some e, walk.exhausted⟩ :
                Walk.Report α)).afterKeeping keep item).congr ?_
              intro storage
              simp only [stepped, hrow]
          | ok first =>
              refine (((ih walk).andThen (fun report storage => ({ report with
                rows := first :: report.rows
                held := if keep then item :: report.held else report.held }, storage))
                fun report => unaware_done _).afterKeeping keep item).congr ?_
              intro storage
              simp only [stepped, hrow]
        · exact unaware_done _
        · exact unaware_done _
      · intro storage
        rw [Walk.take]
        rcases walk.step storage with ⟨⟨⟨address, item⟩ | e | _, walk⟩, after⟩ <;> rfl

end

end RecordStore
