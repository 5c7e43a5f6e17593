import Mathlib
import RecordStore.Proofs.Collection.Custody
import RecordStore.Proofs.Collection.Searching
import RecordStore.Proofs.Collection.Walking

/-!
# Searches and walks release what they get

A search has one record in hand while it is compared, and none while it gets the
next (`carries_binarySearch`); only the record that it finds is still in hand
when it is done.  So it is with a walk that drops its records, which has nothing
in hand when it is done, wherever it stops (`carries_take`).
-/

namespace RecordStore

/-- An operation with a state of its own as one on storage, from a state on. -/
def restate {σ α : Type} (op : σ × Storage → α × (σ × Storage)) (state : σ) :
    Storage → (α × σ) × Storage :=
  fun storage => (((op (state, storage)).1, (op (state, storage)).2.1), (op (state, storage)).2.2)

/-! ## Searches -/

/-- What a search leaves in hand: the record that it found, or nothing more than
there was.  It only comes away empty-handed if a get did; `blame` says what its
failures have to do with that. -/
inductive Finishes (c : Collection) (sizing : Sizing) (blame : Bool → StoreError → Prop)
    (hand : Hand) (starved : Bool) : Hand → Except StoreError (SearchOutcome Item) → Prop
  | found {index : UInt32} {item : Item} {hfree : hand.Free item.cacheId?}
      (hgives : c.Gives ⟨index, sizing⟩ (.ok (some item))) :
      Finishes c sizing blame hand starved (hand.take index item hfree) (.ok (.found index item))
  | absent : Finishes c sizing blame hand starved hand (.ok .absent)
  | exhausted (h : starved) : Finishes c sizing blame hand starved hand (.ok .exhausted)
  | failed {e : StoreError} (h : blame starved e) :
      Finishes c sizing blame hand starved hand (.error e)

section

variable {σ : Type} {c : Collection} {used : List Collection} {others : Option (List Collection)}
  {sizing : Sizing}
  {compare : UInt32 → Item → σ × Storage → Except StoreError Ordering × (σ × Storage)}
  {blame : Bool → StoreError → Prop} {hand : Hand} {lower upper : UInt32}

/-- How a search goes on when the record in the middle has been compared. -/
def judged (c : Collection) (sizing : Sizing)
    (compare : UInt32 → Item → σ × Storage → Except StoreError Ordering × (σ × Storage))
    (lower upper : UInt32) (item : Item) (out : Except StoreError Ordering × σ)
    (storage : Storage) : (Except StoreError (SearchOutcome Item) × σ) × Storage :=
  let middle := Bisection.middle lower upper
  match out with
  | (.error e, state) => ((.error e, state), storage.release item)
  | (.ok .eq, state) => ((.ok (.found middle item), state), storage)
  | (.ok .gt, state) =>
    if middle = 0 then ((.ok .absent, state), storage.release item)
    else restate (c.binarySearch lower (middle - 1) sizing compare) state (storage.release item)
  | (.ok .lt, state) =>
    if middle = 4294967295 then ((.ok .absent, state), storage.release item)
    else restate (c.binarySearch (middle + 1) upper sizing compare) state (storage.release item)

/-- How a search goes on when it has got the record in the middle, or not. -/
def probed (c : Collection) (sizing : Sizing)
    (compare : UInt32 → Item → σ × Storage → Except StoreError Ordering × (σ × Storage))
    (lower upper : UInt32) (state : σ) (result : Except StoreError (Option Item))
    (storage : Storage) : (Except StoreError (SearchOutcome Item) × σ) × Storage :=
  match result with
  | .error e => ((.error e, state), storage)
  | .ok none => ((.ok .exhausted, state), storage)
  | .ok (some item) =>
    let (out, storage) := restate (compare (Bisection.middle lower upper) item) state storage
    judged c sizing compare lower upper item out storage

theorem restate_binarySearch (h : lower ≤ upper) (state : σ) (storage : Storage) :
    restate (c.binarySearch lower upper sizing compare) state storage =
      probed c sizing compare lower upper state
        ((c.get ⟨Bisection.middle lower upper, sizing⟩).run storage).1
        ((c.get ⟨Bisection.middle lower upper, sizing⟩).run storage).2 := by
  have hsearch : ∀ lower upper, c.binarySearch lower upper sizing compare =
      (c.bisection sizing compare).search lower upper := fun _ _ => rfl
  unfold probed judged restate
  simp only [hsearch]
  rw [Bisection.search, dif_pos h, Collection.bisection_fetch]
  rcases (c.get ⟨Bisection.middle lower upper, sizing⟩).run storage with ⟨e | _ | item, after⟩
  · rfl
  · rfl
  · have hcompare : (c.bisection sizing compare).compare = compare := rfl
    simp only [hcompare]
    rcases compare (Bisection.middle lower upper) item (state, after) with
      ⟨e | order, state', after'⟩
    · rfl
    · cases order with
      | eq => rfl
      | gt =>
          by_cases hfirst : Bisection.middle lower upper = 0
          · simp only [dif_pos hfirst, if_pos hfirst]
            rfl
          · simp only [dif_neg hfirst, if_neg hfirst]
            rfl
      | lt =>
          by_cases hlast : Bisection.middle lower upper = 4294967295
          · simp only [dif_pos hlast, if_pos hlast]
            rfl
          · simp only [dif_neg hlast, if_neg hlast]
            rfl

theorem restate_binarySearch_of_lt (h : upper < lower) (state : σ) (storage : Storage) :
    restate (c.binarySearch lower upper sizing compare) state storage =
      ((.ok .absent, state), storage) := by
  have hsearch : c.binarySearch lower upper sizing compare (state, storage) =
      (.ok .absent, (state, storage)) := Bisection.search_of_lt h _
  rw [restate, hsearch]

/-- What a search goes on with releases what is in hand, if the shorter search
that it leaves does. -/
theorem carries_judged {index : UInt32} (hindex : index = Bisection.middle lower upper)
    {item : Item} (hgives : c.Gives ⟨index, sizing⟩ (.ok (some item)))
    {hfree : hand.Free item.cacheId?}
    {out : Except StoreError Ordering × σ} {starved : Bool}
    (herror : ∀ e, out.1 = .error e → blame starved e)
    (hbelow : index ≠ 0 → ∀ state, Carries used others
      (fun starved after out => Finishes c sizing blame hand starved after out.1) starved hand
      (restate (c.binarySearch lower (index - 1) sizing compare) state))
    (habove : index ≠ 4294967295 → ∀ state, Carries used others
      (fun starved after out => Finishes c sizing blame hand starved after out.1) starved hand
      (restate (c.binarySearch (index + 1) upper sizing compare) state)) :
    Carries used others (fun starved after out => Finishes c sizing blame hand starved after out.1)
      starved (hand.take index item hfree) (judged c sizing compare lower upper item out) := by
  subst hindex
  obtain ⟨e | order, state⟩ := out
  · exact .release (.done _ (.failed (herror e rfl)))
  · cases order with
    | eq => exact .done _ (.found hgives)
    | gt =>
        by_cases hfirst : Bisection.middle lower upper = 0
        · refine (Carries.release (.done (.ok .absent, state) .absent)).congr ?_
          intro storage
          exact if_pos hfirst
        · refine (hbelow hfirst state).release.congr ?_
          intro storage
          exact if_neg hfirst
    | lt =>
        by_cases hlast : Bisection.middle lower upper = 4294967295
        · refine (Carries.release (.done (.ok .absent, state) .absent)).congr ?_
          intro storage
          exact if_pos hlast
        · refine (habove hlast state).release.congr ?_
          intro storage
          exact if_neg hlast

/-- **A search releases every record but the one it finds**, if comparing records
leaves nothing in hand. -/
theorem carries_binarySearch (hc : c ∈ used) (hfree : hand.Free c.cacheId?)
    (hget : ∀ index e starved, c.Gives ⟨index, sizing⟩ (.error e) → blame starved e)
    (hcompare : ∀ index item, (hgives : c.Gives ⟨index, sizing⟩ (.ok (some item))) →
      ∀ state starved, Carries used others
        (fun starved after out => after = hand.take index item (hfree.given hgives) ∧
          ∀ e, out.1 = .error e → blame starved e)
        starved (hand.take index item (hfree.given hgives)) (restate (compare index item) state))
    (lower upper : UInt32) (state : σ) (starved : Bool) :
    Carries used others (fun starved after out => Finishes c sizing blame hand starved after out.1)
      starved hand (restate (c.binarySearch lower upper sizing compare) state) := by
  induction hleft : upper.toNat + 1 - lower.toNat using Nat.strong_induction_on
    generalizing lower upper state starved with
  | _ left ih =>
    by_cases h : lower ≤ upper
    · obtain ⟨hlower, hupper⟩ := Bisection.middle_mem h
      refine Carries.congr (.get hc hfree _ (probed c sizing compare lower upper state) ?_ ?_ ?_)
        (restate_binarySearch h state)
      · intro item hgives
        refine Carries.andThen (judged c sizing compare lower upper item)
          ((hcompare _ item hgives state starved).mono ?_)
        rintro starved after out ⟨rfl, herror⟩
        refine carries_judged rfl hgives herror ?_ ?_
        · intro hfirst state
          have hpred := Bisection.toNat_pred hfirst
          exact ih _ (by omega) _ _ state starved rfl
        · intro hlast state
          have hsucc := Bisection.toNat_succ hlast
          exact ih _ (by omega) _ _ state starved rfl
      · exact .done _ (.exhausted rfl)
      · intro e hgives
        exact .done _ (.failed (hget _ e starved hgives))
    · exact Carries.congr (.done (.ok .absent, state) .absent)
        (restate_binarySearch_of_lt (UInt32.not_le.mp h) state)

end

/-! ## Walks -/

section

variable {α : Type} {walk : Walk} {used : List Collection} {others : Option (List Collection)}
  {hand : Hand}

/-- A report with one more row in front. -/
def Walk.Report.cons (first : α) (report : Walk.Report α) : Walk.Report α :=
  { report with rows := first :: report.rows }

/-- How a walk that drops its records goes on when it has got one, or not. -/
def passed (row : UInt32 → Bytes → Except StoreError α) (most : Nat) (walk : Walk)
    (result : Except StoreError (Option Item)) (storage : Storage) : Walk.Report α × Storage :=
  match result with
  | .error e => (⟨[], [], some e, walk.exhausted⟩, storage)
  | .ok none => (⟨[], [], none, true⟩, storage)
  | .ok (some item) =>
    match row walk.next item.bytes with
    | .error e => (⟨[], [], some e, walk.exhausted⟩, storage.release item)
    | .ok first =>
      let (report, storage) := Walk.take row false most (walk.past item) (storage.release item)
      (report.cons first, storage)

theorem take_succ (h : ¬ walk.Over) (row : UInt32 → Bytes → Except StoreError α) (most : Nat)
    (storage : Storage) : Walk.take row false (most + 1) walk storage =
      passed row most walk ((walk.collection.get ⟨walk.next, walk.sizing⟩).run storage).1
        ((walk.collection.get ⟨walk.next, walk.sizing⟩).run storage).2 := by
  have hstep := Walk.step_of_not_over h storage
  have hafter := Walk.step_snd_of_not_over h storage
  unfold Walk.take passed
  rcases hcall : walk.step storage with ⟨⟨step, left⟩, after⟩
  rw [hcall] at hstep hafter
  obtain rfl : after = _ := hafter
  rcases hget : ((walk.collection.get ⟨walk.next, walk.sizing⟩).run storage).1 with
    e | _ | item <;> rw [hget] at hstep <;> obtain ⟨rfl, rfl⟩ := Prod.mk.inj hstep
  · rfl
  · rfl
  · simp only
    cases row walk.next item.bytes <;> rfl

theorem take_of_over (h : walk.Over) (row : UInt32 → Bytes → Except StoreError α) (most : Nat)
    (storage : Storage) : Walk.take row false most walk storage =
      (⟨[], [], none, walk.exhausted⟩, storage) := by
  cases most with
  | zero => rfl
  | succ most =>
      have hstep : walk.step storage = ((.finished, walk), storage) := if_pos h
      rw [Walk.take, hstep]

/-- What a walk leaves that drops its records: nothing more in hand than there
was.  It only stops for want of a node if a get came away empty-handed. -/
def Walk.Drops (walk : Walk) (hand : Hand) (starved : Bool) (after : Hand)
    (report : Walk.Report α) : Prop :=
  after = hand ∧ (report.exhausted → walk.exhausted ∨ starved)

/-- **A walk that drops its records** has none in hand when it is done. -/
theorem carries_take (hc : walk.collection ∈ used) (hfree : hand.Free walk.collection.cacheId?)
    (row : UInt32 → Bytes → Except StoreError α) (most : Nat) (starved : Bool) :
    Carries used others (walk.Drops hand) starved hand (Walk.take row false most walk) := by
  induction most generalizing walk starved with
  | zero => exact .done _ ⟨rfl, .inl⟩
  | succ most ih =>
      by_cases hover : walk.Over
      · refine Carries.congr ?_ (take_of_over hover row (most + 1))
        exact .done _ ⟨rfl, .inl⟩
      · refine Carries.congr (.get hc hfree _ (passed row most walk) ?_ ?_ ?_)
          (take_succ hover row most)
        · intro item hgives
          cases hrow : row walk.next item.bytes with
          | error e =>
              have hdone : Carries used others (walk.Drops hand) starved hand
                  fun storage => ((⟨[], [], some e, walk.exhausted⟩ : Walk.Report α), storage) :=
                .done _ ⟨rfl, .inl⟩
              refine hdone.release.congr ?_
              intro storage
              simp only [passed, hrow]
          | ok first =>
              have hrest : Carries used others (walk.Drops hand) starved hand
                  (Walk.take row false most (walk.past item)) :=
                @ih (walk.past item) hc hfree starved
              have hmore : Carries used others (walk.Drops hand) starved hand _ :=
                Carries.andThen (fun report storage => (report.cons first, storage))
                  (hrest.mono fun starved after report h => .done (report.cons first) h)
              refine hmore.release.congr ?_
              intro storage
              simp only [passed, hrow]
        · exact .done _ ⟨rfl, fun _ => .inr rfl⟩
        · intro e _
          exact .done _ ⟨rfl, .inl⟩

end

end RecordStore
