import Mathlib
import RecordStore.Proofs.Cache.Eviction

/-!
# Loads that fail

The oldest key has left when its node is to be loaded into, and does not come
back if loading fails.  But its node is then free, and free nodes are used
first: further loads that fail use the same node again.  So until a load
succeeds in a shard, the shard loses one key at the most, whatever else is
asked for and given back (`failures_contained`).

Everything else is as it was: the references, the bytes of the keys that stay,
and the order in which they are to leave.
-/

namespace RecordStore.Cache

variable {K : Type} [BEq K] [Hashable K] {σ : Type}

omit [BEq K] [Hashable K] in
/-- Was a key loaded? -/
def Event.fetched : Event K → Bool
  | .got _ calls _ _ => calls.any Except.isOk
  | .released _ => false

/-! ## Shelves -/

namespace Shelf

omit [Hashable K]

variable {mine : K → Prop} {q q' q'' : Shelf K} {event : Event K} {key : K} {data : Bytes}

/-- What a shelf has lost: nothing, and it has as many free entries as before,
or one key, and it has a free entry. -/
inductive Lessened (q q' : Shelf K) : Prop
  | whole (hfree : q'.free = q.free) (hdata : ∀ key, q'.data? key = q.data? key)
  | short {old : K} (hfree : 0 < q'.free)
      (hdata : ∀ key, q'.data? key = if old == key then none else q.data? key)

/-- A load that fails takes a free entry, or else that of the oldest key. -/
theorem lessened_makeRoom (hroom : q.makeRoom? = some q') : q.Lessened q' := by
  have hknown := known?_room hroom
  rcases makeRoom?_cases hroom with ⟨-, -, rfl⟩ | ⟨old, front, hold, -, hafter⟩
  · exact .whole rfl fun _ => rfl
  · have hfree : 0 < q'.free := by
      rw [hafter]
      exact Nat.one_pos
    have hdata : ∀ key, q'.data? key = if old == key then none else q.data? key := by
      intro key
      unfold Shelf.data?
      rw [hknown, hold, Option.any_some]
      split <;> rfl
    exact .short hfree hdata

/-- A shelf that has a free entry loses nothing. -/
theorem lessened_makeRoom_of_pos (hroom : q.makeRoom? = some q') (hpos : 0 < q.free) : q' = q := by
  rcases makeRoom?_cases hroom with ⟨-, -, rfl⟩ | ⟨old, front, hold, -, -⟩
  · rfl
  · unfold oldest? at hold
    rw [if_neg (Nat.ne_of_gt hpos)] at hold
    cases hold

/-- **A step that loads nothing** makes room at the most, and changes no bytes
besides. -/
theorem Step.quiet (hstep : q.Step event q') (h : q.Proper mine) (hquiet : event.fetched = false) :
    q.makeRoom? = some q' ∨ (q'.free = q.free ∧ ∀ key, q'.data? key = q.data? key) := by
  cases hstep with
  | hit hentry => exact .inr ⟨rfl, h.data?_set hentry _⟩
  | full hmiss hroom => exact .inr ⟨rfl, fun _ => rfl⟩
  | loaded data hmiss hroom => cases hquiet
  | failed e hmiss hroom => exact .inl hroom
  | released hentry hheld => exact .inr ⟨rfl, h.data?_set hentry _⟩

/-- **What was lost is lost for good, and nothing more is.** -/
theorem Lessened.step (hless : q.Lessened q') (h : q'.Proper mine) (hstep : q'.Step event q'')
    (hquiet : event.fetched = false) : q.Lessened q'' := by
  rcases hstep.quiet h hquiet with hroom | ⟨hfree', hdata'⟩
  · cases hless with
    | whole hfree hdata =>
        cases lessened_makeRoom hroom with
        | whole hfree' hdata' =>
            exact .whole (hfree'.trans hfree) fun key => (hdata' key).trans (hdata key)
        | @short old hfree' hdata' =>
            have hafter : ∀ key, q''.data? key = if old == key then none else q.data? key := by
              intro key
              rw [hdata', hdata]
            exact .short hfree' hafter
    | short hfree hdata =>
        obtain rfl := lessened_makeRoom_of_pos hroom hfree
        exact .short hfree hdata
  · cases hless with
    | whole hfree hdata =>
        exact .whole (hfree'.trans hfree) fun key => (hdata' key).trans (hdata key)
    | short hfree hdata =>
        exact .short (hfree' ▸ hfree) fun key => (hdata' key).trans (hdata key)

theorem Lessened.follows (hless : q.Lessened q') (h : q'.Proper mine)
    (hfollows : q'.Follows mine event q'') (hquiet : mine event.key → event.fetched = false) :
    q.Lessened q'' := by
  cases hfollows with
  | step hkey hstep => exact hless.step h hstep (hquiet hkey)
  | elsewhere _ _ => exact hless

end Shelf

/-! ## Stretches of a history -/

namespace Usage

/-- A get of a key asks its loader, which fails. -/
def Fails (u : Usage K) (key : K) (load : σ → Except StoreError Bytes × σ) (world : σ)
    (e : StoreError) : Prop :=
  (u.cache.get key (logged load) (world, [])).2.2 = [.error e]

/-- The states that gets and releases lead on to. -/
inductive Leads (u : Usage K) : Usage K → Prop
  | refl : Leads u u
  | get {σ : Type} {v : Usage K} (h : Leads u v) (key : K)
      (load : σ → Except StoreError Bytes × σ) (world : σ) : Leads u (v.get key load world)
  | release {v : Usage K} (h : Leads u v) {loan : Loan K} {rest : List (Loan K)}
      (hout : v.out.Perm (loan :: rest)) : Leads u (v.release loan rest)

theorem Leads.used {start : Cache K} {u v : Usage K} (h : u.Leads v) (hu : Used start u) :
    Used start v := by
  induction h with
  | refl => exact hu
  | get _ key load world ih => exact ih.get key load world
  | release _ hout ih => exact ih.release hout

/-- What is so after a get of a key whose loader failed, in a cache of `count`
shards.

* `gone`: the key is not there.
* `out`, `holders`: the same references are out, to the same nodes.
* `held`: a key that somebody holds is still there, with its bytes.
* `kept`: what is still there has the bytes it had.
* `left`: a key that is not there any more is the one that the get dropped.
* `queue`: the keys that nobody holds are in the same order as before, so far
  as they are still there. -/
structure AfterFailure (u after : Usage K) (key : K) (count : Nat) : Prop where
  gone : after.cache.resident? key = none
  out : after.out = u.out
  holders : ∀ place < count, ∀ node,
    ((after.cache.shard place).node node).holders = ((u.cache.shard place).node node).holders
  held : ∀ loan ∈ u.out, after.cache.resident? loan.key = some loan.ref.data
  kept : ∀ {other : K} {bytes : Bytes}, after.cache.resident? other = some bytes →
    u.cache.resident? other = some bytes
  left : ∀ {other : K}, Left u.cache after.cache other → u.cache.shardOf other =
    u.cache.shardOf key ∧ (u.cache.evictee? key).any (· == other)
  queue : ∀ place < count,
    (after.cache.shard place).shelf.idle <+: (u.cache.shard place).shelf.idle

/-- A stretch of the history of a cache, from `u` to `after`, in which nothing is
loaded in the shard at a place. -/
structure Unfed (u after : Usage K) (count : Nat) (spread : K → UInt64) (place : Nat) : Prop where
  leads : u.Leads after
  quiet : ∃ recent, after.past = recent ++ u.past ∧
    ∀ event ∈ recent, (spread event.key).toNat % count = place → event.fetched = false

/-- How a cache of `count` shards, to which `spread` assigns the keys, takes it
when loaders fail.

* `answer`: the failure is passed on.
* `failed`: nothing is lost but the key that the get dropped.
* `kept`, `left`: while nothing is loaded in a shard, nothing comes into it and
  no more than one key leaves it, whatever else is done with the cache. -/
structure Robust (u : Usage K) (count : Nat) (spread : K → UInt64) : Prop where
  answer : ∀ {σ : Type} {key : K} {load : σ → Except StoreError Bytes × σ} {world : σ}
    {e : StoreError}, u.Fails key load world e → (u.cache.get key load world).1.1 = .error e
  failed : ∀ {σ : Type} {key : K} {load : σ → Except StoreError Bytes × σ} {world : σ}
    {e : StoreError}, u.Fails key load world e → u.AfterFailure (u.get key load world) key count
  kept : ∀ {after : Usage K} {place : Nat}, place < count → u.Unfed after count spread place →
    ∀ {key : K} {bytes : Bytes}, (spread key).toNat % count = place →
      after.cache.resident? key = some bytes → u.cache.resident? key = some bytes
  left : ∀ {after : Usage K} {place : Nat}, place < count → u.Unfed after count spread place →
    ∀ {key other : K}, (spread key).toNat % count = place → (spread other).toNat % count = place →
      Left u.cache after.cache key → Left u.cache after.cache other → key == other

theorem Leads.past {u after : Usage K} (h : u.Leads after) :
    ∃ recent, after.past = recent ++ u.past := by
  induction h with
  | refl => exact ⟨[], rfl⟩
  | get _ key load world ih =>
      obtain ⟨recent, hrecent⟩ := ih
      exact ⟨_ :: recent, congrArg (List.cons _) hrecent⟩
  | release _ _ ih =>
      obtain ⟨recent, hrecent⟩ := ih
      exact ⟨_ :: recent, congrArg (List.cons _) hrecent⟩

/-- What a get answers whose loader failed, and that it gives out nothing. -/
theorem Fails.answer {u : Usage K} {key : K} {load : σ → Except StoreError Bytes × σ} {world : σ}
    {e : StoreError} (h : u.Fails key load world e) :
    (u.cache.get key load world).1.1 = .error e ∧ (u.get key load world).out = u.out := by
  obtain ⟨answer, hit, s', hgets, hresult, -, -⟩ :=
    get_course u.cache key (logged load) (world, [])
  have hanswer : answer = .failed e := by
    unfold Fails at h
    generalize (u.cache.get key (logged load) (world, [])).2 = after at hgets h
    cases hgets with
    | hit _ => cases h
    | exhausted _ _ => cases h
    | loaded _ _ hload =>
        obtain ⟨hok, rfl⟩ := Prod.mk.inj hload
        rw [show (load world).1 = .error e from (List.cons.inj h).1] at hok
        cases hok
    | failed _ _ hload =>
        obtain ⟨herror, rfl⟩ := Prod.mk.inj hload
        rw [show (load world).1 = .error e from (List.cons.inj h).1] at herror
        rw [Except.error.inj herror]
  rw [hanswer] at hresult
  refine ⟨?_, ?_⟩
  · rw [← (get_logged u.cache key load world []).1, hresult]
    rfl
  · rw [Usage.get, hresult]
    rfl

end Usage

section

variable {capacity : UInt32} {concurrency : UInt16} {spread : K → UInt64} {start : Cache K}
  {u after : Usage K} {place : Nat} {key : K} {load : σ → Except StoreError Bytes × σ} {world : σ}
  {e : StoreError} [EquivBEq K] [LawfulHashable K]
  (hstart : Cache.create capacity concurrency spread = .ok start) (hu : Used start u)

include hstart hu

/-- What is in a cache is what is on the shelves behind it. -/
theorem Used.resident?_eq_data? (key : K) : u.cache.resident? key =
    (u.cache.shard ((spread key).toNat % concurrency.toNat)).shelf.data? key := by
  rw [← hu.shardOf_eq hstart]
  exact (hu.shard hstart (hu.shardOf_lt hstart key)).resident?_eq

/-- A key that somebody holds is there. -/
theorem Used.resident?_of_loan {loan : Loan K} (hloan : loan ∈ u.out) :
    u.cache.resident? loan.key = some loan.ref.data := by
  have hhas := (hu.sound hstart).1.has loan hloan
  rw [← hu.shardOf_loan hloan] at hhas
  obtain ⟨own, hown, hsame, hdata⟩ := hhas
  exact (hu.shard hstart (hu.shardOf_lt hstart loan.key)).resident?_eq_some_iff.mpr
    ⟨_, own, hown, hsame, hdata⟩

/-- **A load that fails makes room in the key's shard**, and leaves the others
alone. -/
theorem Used.room_of_fails (h : u.Fails key load world e) (place : Nat) :
    ((u.get key load world).cache.shard place).shelf = (u.cache.shard place).shelf ∨
      (u.cache.shardOf key = place ∧
        u.cache.evictee? key = (u.cache.shard place).shelf.oldest? ∧
        (u.cache.shard place).shelf.makeRoom? =
          some ((u.get key load world).cache.shard place).shelf) := by
  obtain ⟨event, hpast, hfollows⟩ := hu.follows_get hstart key load world place
  have hevent : event = .got key [.error e] (u.cache.evictee? key) (.error e) := by
    rw [← (List.cons.inj hpast).1, show (u.cache.get key (logged load) (world, [])).2.2 = _ from h,
      (get_logged u.cache key load world []).1, h.answer.1]
    rfl
  rw [hevent] at hfollows
  generalize u.cache.evictee? key = evicted? at hfollows ⊢
  generalize ((u.get key load world).cache.shard place).shelf = room at hfollows ⊢
  cases hfollows with
  | step hkey hstep =>
      cases hstep with
      | failed _ _ hroom => exact .inr ⟨(hu.shardOf_eq hstart key).trans hkey, rfl, hroom⟩
  | elsewhere _ _ => exact .inl rfl

/-- **What a failure leaves.** -/
theorem Used.afterFailure (h : u.Fails key load world e) :
    u.AfterFailure (u.get key load world) key concurrency.toNat := by
  have hnext : Used start (u.get key load world) := hu.get key load world
  have hout := h.answer.2
  obtain ⟨-, -, hpos, -⟩ := sound_create hstart
  -- what the key's shelf has afterwards, if it was changed
  have hroomy : ∀ other, (u.get key load world).cache.resident? other = u.cache.resident? other ∨
      (u.cache.shardOf other = u.cache.shardOf key ∧ (u.get key load world).cache.resident? other =
        if (u.cache.evictee? key).any (· == other) then none else u.cache.resident? other) := by
    intro other
    rw [hnext.resident?_eq_data? hstart, hu.resident?_eq_data? hstart]
    rcases hu.room_of_fails hstart h ((spread other).toNat % concurrency.toNat) with
      hsame | ⟨hplace, hevictee, hroom⟩
    · exact .inl (by rw [hsame])
    · refine .inr ⟨by rw [hu.shardOf_eq hstart other, hplace], ?_⟩
      unfold Shelf.data?
      rw [Shelf.known?_room hroom, hevictee]
      split <;> rfl
  refine ⟨?_, hout, ?_, ?_, ?_, ?_, ?_⟩
  · have houtcome := get_outcome (hu.sound hstart).1.lending hpos key load world
    rw [show u.lending.cache = u.cache from rfl, h.answer.1, ← Usage.cache_get] at houtcome
    generalize (u.get key load world).cache.resident? key = now at houtcome
    cases houtcome with
    | failed _ _ => rfl
  · intro place hplace node
    rw [(hnext.shard hstart hplace).holders, (hu.shard hstart hplace).holders, hout]
  · intro loan hloan
    exact hnext.resident?_of_loan hstart (hout ▸ hloan)
  · intro other bytes hfound
    rcases hroomy other with hsame | ⟨-, hafter⟩
    · rw [← hsame]
      exact hfound
    · rw [hafter] at hfound
      split at hfound
      · cases hfound
      · exact hfound
  · rintro other ⟨hthere, hgone⟩
    rcases hroomy other with hsame | ⟨hplace, hafter⟩
    · rw [hsame] at hgone
      exact absurd hgone hthere
    · refine ⟨hplace, ?_⟩
      by_contra hstays
      rw [hafter, if_neg hstays] at hgone
      exact hthere hgone
  · intro place _
    rcases hu.room_of_fails hstart h place with hsame | ⟨-, -, hroom⟩
    · rw [hsame]
    · rcases Shelf.makeRoom?_cases hroom with ⟨-, -, hsame⟩ | ⟨old, front, -, hsplit, hafter⟩
      · rw [hsame]
      · rw [hafter, hsplit]
        exact List.prefix_append front [old]

/-- **While nothing is loaded in a shard**, the shelf behind it loses one key at
the most. -/
theorem Used.lessened (hplace : place < concurrency.toNat)
    (h : u.Unfed after concurrency.toNat spread place) :
    (u.cache.shard place).shelf.Lessened (after.cache.shard place).shelf := by
  obtain ⟨hleads, recent, hpast, hquiet⟩ := h
  induction hleads generalizing recent with
  | refl => exact .whole rfl fun _ => rfl
  | @get σ v hleads key load world ih =>
      have hv := hleads.used hu
      obtain ⟨before, hbefore⟩ := hleads.past
      obtain ⟨event, hevent, hfollows⟩ := hv.follows_get hstart key load world place
      have hrecent : event :: before = recent := by
        refine List.append_cancel_right (show _ ++ u.past = _ ++ u.past from ?_)
        rw [← hpast, hevent, hbefore, List.cons_append]
      rw [← hrecent, List.forall_mem_cons] at hquiet
      exact (ih before hbefore hquiet.2).follows (hv.runs hstart hplace).proper hfollows hquiet.1
  | @release v hleads loan rest hout ih =>
      have hv := hleads.used hu
      obtain ⟨before, hbefore⟩ := hleads.past
      have hrecent : .released loan.key :: before = recent := by
        refine List.append_cancel_right (show _ ++ u.past = _ ++ u.past from ?_)
        rw [← hpast, Usage.release, hbefore, List.cons_append]
      rw [← hrecent, List.forall_mem_cons] at hquiet
      exact (ih before hbefore hquiet.2).follows (hv.runs hstart hplace).proper
        (hv.follows_release hstart hout) hquiet.1

/-- **Loads that fail do limited damage**, whatever was done with the cache so
far. -/
theorem failures_contained : u.Robust concurrency.toNat spread where
  answer := fun h => h.answer.1
  failed := fun h => hu.afterFailure hstart h
  kept := by
    rintro after place hplace hstretch key bytes rfl hfound
    have hless := hu.lessened hstart hplace hstretch
    rw [(hstretch.leads.used hu).resident?_eq_data? hstart] at hfound
    rw [hu.resident?_eq_data? hstart]
    cases hless with
    | whole _ hdata => exact hdata key ▸ hfound
    | short _ hdata =>
        rw [hdata] at hfound
        split at hfound
        · cases hfound
        · exact hfound
  left := by
    rintro after place hplace hstretch key other hkey hother hleft hleft'
    have hless := hu.lessened hstart hplace hstretch
    have hnext := hstretch.leads.used hu
    unfold Left at hleft hleft'
    rw [hu.resident?_eq_data? hstart, hnext.resident?_eq_data? hstart, hkey] at hleft
    rw [hu.resident?_eq_data? hstart, hnext.resident?_eq_data? hstart, hother] at hleft'
    cases hless with
    | whole _ hdata =>
        rw [hdata] at hleft
        exact absurd hleft.2 hleft.1
    | @short old _ hdata =>
        have hold : ∀ {k : K}, (u.cache.shard place).shelf.data? k ≠ none ∧
            (after.cache.shard place).shelf.data? k = none → old == k := by
          intro k hleft
          by_contra hne
          rw [hdata, if_neg hne] at hleft
          exact hleft.1 hleft.2
        exact BEq.trans (BEq.symm (hold hleft)) (hold hleft')

end

/-- Two keys come in and are let go.  Two loads fail: the first makes the older
key leave, and after the second the other is still there. -/
theorem failures_cost_one_of_two : ∃ (start : Cache Nat) (u after : Usage Nat),
    Cache.create 2 1 Nat.toUInt64 = .ok start ∧ Used start u ∧ u.Robust 1 Nat.toUInt64 ∧
      u.Fails 3 (fun world : Unit => (.error .readFailed, world)) () .readFailed ∧
      u.Unfed after 1 Nat.toUInt64 0 ∧ after.past.map Event.key = [4, 3, 2, 1, 2, 1] ∧
      Left u.cache after.cache 1 ∧ after.cache.resident? 2 = some [7] := by
  let start : Cache Nat := ⟨#[Shard.ofSize 2], Nat.toUInt64, 2, 1, 0, 0⟩
  let load : Unit → Except StoreError Bytes × Unit := fun world => (.ok [7], world)
  let fail : Unit → Except StoreError Bytes × Unit := fun world => (.error .readFailed, world)
  have hstart : Cache.create 2 1 Nat.toUInt64 = .ok start := rfl
  let both := (Usage.get ⟨start, [], []⟩ 1 load ()).get 2 load ()
  have hout : both.out = [⟨2, ⟨⟨0, 0⟩, [7]⟩⟩, ⟨1, ⟨⟨0, 1⟩, [7]⟩⟩] := by cbv
  have hboth : Used start both := .get (.get .start 1 load ()) 2 load ()
  have hfirst : Used start (both.release ⟨1, ⟨⟨0, 1⟩, [7]⟩⟩ [⟨2, ⟨⟨0, 0⟩, [7]⟩⟩]) :=
    hboth.release (hout ▸ List.Perm.swap _ _ _)
  have hused := hfirst.release (List.Perm.refl _)
  let u := (both.release ⟨1, ⟨⟨0, 1⟩, [7]⟩⟩ [⟨2, ⟨⟨0, 0⟩, [7]⟩⟩]).release ⟨2, ⟨⟨0, 0⟩, [7]⟩⟩ []
  have hrecent : ((u.get 3 fail ()).get 4 fail ()).past =
      [.got 4 [.error .readFailed] none (.error .readFailed),
        .got 3 [.error .readFailed] (some 1) (.error .readFailed)] ++ u.past := by cbv
  have hunfed : u.Unfed ((u.get 3 fail ()).get 4 fail ()) 1 Nat.toUInt64 0 :=
    ⟨.get (.get .refl 3 fail ()) 4 fail (), _, hrecent,
      by simp [Event.fetched, Except.isOk, Except.toBool]⟩
  have hthere : u.cache.resident? 1 = some [7] := by cbv
  have hleft : Left u.cache ((u.get 3 fail ()).get 4 fail ()).cache 1 :=
    ⟨by rw [hthere]; exact Option.some_ne_none _, by cbv⟩
  exact ⟨start, u, _, hstart, hused, failures_contained hstart hused, by cbv, hunfed, by cbv,
    hleft, by cbv⟩

end RecordStore.Cache
