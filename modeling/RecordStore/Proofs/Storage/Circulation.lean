import Mathlib
import RecordStore.Storage.HandlePool

/-!
# Handles in circulation

`Traffic` is a pool with those who use it: the handles that are out, each with
the caller who has it, and the callers who have a place for a handle but have
not opened the file yet.

Getting a handle that is not idle takes two steps: a place for it is taken
(`HandlePool.ask`), and then the file is opened (`HandlePool.settle`), which may
fail; then the place is given back.  Other callers may do anything in between.
`HandlePool.checkOut` is both steps at once (`checkOut_eq`).  A run whose gets
are all made at once is `Serial`, and in it nobody has a place without a handle
(`Serial.opening_eq_nil`).

Every handle that was ever opened is idle or out, and in one place only
(`Balanced`).  Each step keeps it so, and `handles_accounted` is what follows for
those who ask for one, at once or in two steps.
-/

namespace RecordStore

namespace HandlePool

/-! ## The two steps -/

/-- What a pool says to a caller who asks for a handle. -/
inductive Grant
  /-- Here is one that nobody has. -/
  | handle (handle : Handle)
  /-- There is a place for a new one. -/
  | place
  /-- All that may be open are out. -/
  | wait
  deriving DecidableEq, Repr

/-- Asks for a handle.  A place that is granted is taken at once. -/
def ask (pool : HandlePool) : Grant × HandlePool :=
  match pool.idle with
  | handle :: idle => (.handle handle, { pool with idle })
  | [] =>
    if pool.opened < pool.concurrency then (.place, { pool with opened := pool.opened + 1 })
    else (.wait, pool)

/-- Opens the file in a place that was granted, or gives the place back if it
cannot be opened. -/
def settle (pool : HandlePool) (file : DataFile) : Except StoreError Handle × HandlePool :=
  if file.named then (.ok ⟨pool.issued, 0⟩, { pool with issued := pool.issued + 1 })
  else (.error .openFailed, { pool with opened := pool.opened - 1 })

/-- **All that asking can come to.** -/
theorem ask_cases (pool : HandlePool) :
    (∃ handle idle, pool.idle = handle :: idle ∧
      pool.ask = (.handle handle, { pool with idle })) ∨
    (pool.idle = [] ∧ pool.opened < pool.concurrency ∧
      pool.ask = (.place, { pool with opened := pool.opened + 1 })) ∨
    (pool.idle = [] ∧ pool.concurrency ≤ pool.opened ∧ pool.ask = (.wait, pool)) := by
  unfold ask
  cases hidle : pool.idle with
  | cons handle idle => exact .inl ⟨handle, idle, rfl, rfl⟩
  | nil =>
      right
      by_cases hroom : pool.opened < pool.concurrency
      · exact .inl ⟨rfl, hroom, if_pos hroom⟩
      · exact .inr ⟨rfl, Nat.le_of_not_lt hroom, if_neg hroom⟩

theorem settle_of_named (pool : HandlePool) {file : DataFile} (h : file.named = true) :
    pool.settle file = (.ok ⟨pool.issued, 0⟩, { pool with issued := pool.issued + 1 }) :=
  if_pos h

theorem settle_of_not_named (pool : HandlePool) {file : DataFile} (h : ¬ file.named = true) :
    pool.settle file = (.error .openFailed, { pool with opened := pool.opened - 1 }) :=
  if_neg h

/-- **Checking out** is asking, and opening the file if there is a place. -/
theorem checkOut_eq (pool : HandlePool) (file : DataFile) : pool.checkOut file =
    match pool.ask with
    | (.handle handle, pool) => (.ok (some handle), pool)
    | (.place, pool) => ((pool.settle file).1.map some, (pool.settle file).2)
    | (.wait, pool) => (.ok none, pool) := by
  obtain ⟨concurrency, idle, opened, issued⟩ := pool
  cases idle with
  | cons handle idle => simp [checkOut, ask]
  | nil =>
      by_cases hroom : opened < concurrency
      · by_cases hnamed : file.named <;> simp [checkOut, ask, settle, hroom, hnamed, Except.map]
      · simp [checkOut, ask, hroom]

/-- A caller waits exactly if no handle is idle and no more may be opened. -/
theorem checkOut_eq_none_iff (pool : HandlePool) (file : DataFile) :
    (pool.checkOut file).1 = .ok none ↔ pool.idle = [] ∧ pool.concurrency ≤ pool.opened := by
  rw [checkOut_eq]
  rcases pool.ask_cases with ⟨handle, idle, hidle, hask⟩ | ⟨hidle, hroom, hask⟩ |
    ⟨hidle, hfull, hask⟩
  · simp [hask, hidle]
  · have hopen : ∀ result : Except StoreError Handle, result.map some ≠ .ok none := by
      rintro (e | handle) <;> simp [Except.map]
    simp [hask, hopen, Nat.not_le_of_lt hroom]
  · simp [hask, hidle, hfull]

/-- A get fails exactly if a handle would have to be opened and cannot be. -/
theorem checkOut_eq_error_iff (pool : HandlePool) (file : DataFile) :
    (∃ e, (pool.checkOut file).1 = .error e) ↔
      pool.idle = [] ∧ pool.opened < pool.concurrency ∧ file.named = false := by
  rw [checkOut_eq]
  rcases pool.ask_cases with ⟨handle, idle, hidle, hask⟩ | ⟨hidle, hroom, hask⟩ |
    ⟨hidle, hfull, hask⟩
  · simp [hask, hidle]
  · by_cases hnamed : file.named = true
    · simp [hask, settle_of_named _ hnamed, hnamed, Except.map]
    · simp [hask, settle_of_not_named _ hnamed, hnamed, Except.map, hidle, hroom]
  · simp [hask, Nat.not_lt_of_le hfull]

end HandlePool

/-! ## Traffic -/

/-- A pool with those who use it. -/
structure Traffic (Caller : Type) where
  file : DataFile
  pool : HandlePool
  /-- The handles that are out, with the callers who have them. -/
  held : List (Caller × Handle)
  /-- The callers who have a place and are about to open the file. -/
  opening : List Caller

namespace Traffic

variable {Caller : Type}

/-- A caller asks for a handle. -/
def ask (t : Traffic Caller) (caller : Caller) : Traffic Caller :=
  match t.pool.ask with
  | (.handle handle, pool) => { t with pool, held := (caller, handle) :: t.held }
  | (.place, pool) => { t with pool, opening := caller :: t.opening }
  | (.wait, pool) => { t with pool }

/-- A caller with a place opens the file, or fails to. -/
def settle [DecidableEq Caller] (t : Traffic Caller) (caller : Caller) : Traffic Caller :=
  match t.pool.settle t.file with
  | (.ok handle, pool) =>
    { t with pool, held := (caller, handle) :: t.held, opening := t.opening.erase caller }
  | (.error _, pool) => { t with pool, opening := t.opening.erase caller }

/-- A caller gets a handle, unless the file cannot be opened or all are out;
nobody else does anything meanwhile. -/
def get (t : Traffic Caller) (caller : Caller) : Traffic Caller :=
  match t.pool.checkOut t.file with
  | (.ok (some handle), pool) => { t with pool, held := (caller, handle) :: t.held }
  | (.ok none, pool) => { t with pool }
  | (.error _, pool) => { t with pool }

/-- A caller drops a handle, which has come to a position by then. -/
def drop [DecidableEq Caller] (t : Traffic Caller) (entry : Caller × Handle) (position : Nat) :
    Traffic Caller :=
  { t with
    pool := t.pool.giveBack { entry.2 with position }
    held := t.held.erase entry }

/-- What callers lead to who use a new pool of a concurrency; at any time, the
file may be deleted. -/
inductive Run [DecidableEq Caller] (concurrency : Nat) : Traffic Caller → Prop
  | start (file : DataFile) {pool : HandlePool}
      (hpool : HandlePool.create concurrency = .ok pool) : Run concurrency ⟨file, pool, [], []⟩
  | get {t : Traffic Caller} (h : Run concurrency t) (caller : Caller) :
      Run concurrency (t.get caller)
  | ask {t : Traffic Caller} (h : Run concurrency t) (caller : Caller) :
      Run concurrency (t.ask caller)
  | settle {t : Traffic Caller} (h : Run concurrency t) {caller : Caller}
      (hcaller : caller ∈ t.opening) : Run concurrency (t.settle caller)
  | drop {t : Traffic Caller} (h : Run concurrency t) {entry : Caller × Handle}
      (hentry : entry ∈ t.held) (position : Nat) : Run concurrency (t.drop entry position)
  | delete {t : Traffic Caller} (h : Run concurrency t) :
      Run concurrency { t with file := t.file.delete.2 }

/-- What callers lead to whose gets are made at once: each has come to its end,
or is to be made again later, before anything else happens. -/
inductive Serial [DecidableEq Caller] (concurrency : Nat) : Traffic Caller → Prop
  | start (file : DataFile) {pool : HandlePool}
      (hpool : HandlePool.create concurrency = .ok pool) : Serial concurrency ⟨file, pool, [], []⟩
  | get {t : Traffic Caller} (h : Serial concurrency t) (caller : Caller) :
      Serial concurrency (t.get caller)
  | drop {t : Traffic Caller} (h : Serial concurrency t) {entry : Caller × Handle}
      (hentry : entry ∈ t.held) (position : Nat) : Serial concurrency (t.drop entry position)
  | delete {t : Traffic Caller} (h : Serial concurrency t) :
      Serial concurrency { t with file := t.file.delete.2 }

/-- The handles that are open: those that are out, and those that are idle. -/
def ids (t : Traffic Caller) : List Nat :=
  t.held.map (·.2.id) ++ t.pool.idle.map (·.id)

/-- Nothing is lost, and nothing is there twice.

* `places`: every place that is taken is that of an idle handle, of one that is
  out, or of a caller who is about to open the file.
* `issued`, `fresh`: handles are numbered as they are opened, and none is ever
  closed.
* `once`: no handle is out twice, or idle while it is out. -/
structure Balanced (concurrency : Nat) (t : Traffic Caller) : Prop where
  concurrency_eq : t.pool.concurrency = concurrency
  places : t.pool.opened = t.pool.idle.length + t.held.length + t.opening.length
  bound : t.pool.opened ≤ concurrency
  issued : t.pool.issued = t.pool.idle.length + t.held.length
  fresh : ∀ id ∈ t.ids, id < t.pool.issued
  once : t.ids.Nodup

section

variable {concurrency : Nat} {t : Traffic Caller}

theorem balanced_start {file : DataFile} {pool : HandlePool}
    (hpool : HandlePool.create concurrency = .ok pool) :
    Balanced concurrency (⟨file, pool, [], []⟩ : Traffic Caller) := by
  obtain ⟨-, rfl⟩ := HandlePool.create_eq_ok hpool
  exact ⟨rfl, rfl, Nat.zero_le _, rfl, by simp [ids], by simp [ids]⟩

theorem Balanced.ask (h : Balanced concurrency t) (caller : Caller) :
    Balanced concurrency (t.ask caller) := by
  obtain ⟨hconcurrency, hplaces, hbound, hissued, hfresh, honce⟩ := h
  unfold Traffic.ask
  rcases t.pool.ask_cases with ⟨handle, idle, hidle, hask⟩ | ⟨hidle, hroom, hask⟩ |
    ⟨hidle, hfull, hask⟩
  · -- the handle goes from the idle ones to those that are out
    have hperm : t.ids.Perm (handle.id :: (t.held.map (·.2.id) ++ idle.map (·.id))) := by
      rw [ids, hidle, List.map_cons]
      exact List.perm_middle
    rw [hask]
    rw [hidle, List.length_cons] at hplaces hissued
    refine ⟨hconcurrency, ?_, hbound, ?_, ?_, ?_⟩
    · simp only [List.length_cons]
      omega
    · simp only [List.length_cons]
      omega
    · intro id hid
      exact hfresh id (hperm.mem_iff.mpr hid)
    · exact hperm.nodup_iff.mp honce
  · rw [hask]
    refine ⟨hconcurrency, ?_, ?_, hissued, hfresh, honce⟩
    · simp only [List.length_cons]
      omega
    · simp only
      omega
  · rw [hask]
    exact ⟨hconcurrency, hplaces, hbound, hissued, hfresh, honce⟩

theorem Balanced.settle [DecidableEq Caller] (h : Balanced concurrency t) {caller : Caller}
    (hcaller : caller ∈ t.opening) : Balanced concurrency (t.settle caller) := by
  obtain ⟨hconcurrency, hplaces, hbound, hissued, hfresh, honce⟩ := h
  have hlength := List.length_erase_of_mem hcaller
  have hpos := List.length_pos_of_mem hcaller
  unfold Traffic.settle
  by_cases hnamed : t.file.named = true
  · rw [t.pool.settle_of_named hnamed]
    refine ⟨hconcurrency, ?_, hbound, ?_, ?_, ?_⟩
    · simp only [List.length_cons]
      omega
    · simp only [List.length_cons]
      omega
    · intro id hid
      rcases List.mem_cons.mp hid with rfl | hid
      · exact Nat.lt_succ_self _
      · exact Nat.lt_succ_of_lt (hfresh id hid)
    · -- the number of the new handle is that of no other
      refine List.nodup_cons.mpr ⟨?_, honce⟩
      intro hid
      exact Nat.lt_irrefl _ (hfresh _ hid)
  · rw [t.pool.settle_of_not_named hnamed]
    refine ⟨hconcurrency, ?_, ?_, hissued, hfresh, honce⟩
    · simp only
      omega
    · simp only
      omega

theorem Balanced.drop [DecidableEq Caller] (h : Balanced concurrency t) {entry : Caller × Handle}
    (hentry : entry ∈ t.held) (position : Nat) :
    Balanced concurrency (t.drop entry position) := by
  obtain ⟨hconcurrency, hplaces, hbound, hissued, hfresh, honce⟩ := h
  have hlength := List.length_erase_of_mem hentry
  have hpos := List.length_pos_of_mem hentry
  have hperm : t.ids.Perm (t.drop entry position).ids := by
    have hheld := (List.perm_cons_erase hentry).map fun entry => entry.2.id
    refine (hheld.append_right _).trans ?_
    exact List.perm_middle.symm
  refine ⟨hconcurrency, ?_, hbound, ?_, ?_, ?_⟩
  · simp only [Traffic.drop, HandlePool.giveBack, List.length_cons]
    omega
  · simp only [Traffic.drop, HandlePool.giveBack, List.length_cons]
    omega
  · intro id hid
    exact hfresh id (hperm.mem_iff.mpr hid)
  · exact hperm.nodup_iff.mp honce

/-- A get is an asking, and an opening of the file if it is granted a place. -/
theorem get_eq [DecidableEq Caller] (t : Traffic Caller) (caller : Caller) :
    t.get caller = t.ask caller ∨
      (caller ∈ (t.ask caller).opening ∧ t.get caller = (t.ask caller).settle caller) := by
  unfold Traffic.get Traffic.ask
  rw [HandlePool.checkOut_eq]
  rcases t.pool.ask_cases with ⟨handle, idle, hidle, hask⟩ | ⟨hidle, hroom, hask⟩ |
    ⟨hidle, hfull, hask⟩
  · left
    rw [hask]
  · right
    rw [hask]
    refine ⟨List.mem_cons_self, ?_⟩
    by_cases hnamed : t.file.named = true
    · simp [Traffic.settle, HandlePool.settle_of_named _ hnamed, Except.map]
    · simp [Traffic.settle, HandlePool.settle_of_not_named _ hnamed, Except.map]
  · left
    rw [hask]

/-- **Every run is balanced.** -/
theorem Run.balanced [DecidableEq Caller] (h : Run concurrency t) : Balanced concurrency t := by
  induction h with
  | start file hpool => exact balanced_start hpool
  | @get t h caller ih =>
      rcases t.get_eq caller with hget | ⟨hcaller, hget⟩
      · rw [hget]
        exact ih.ask caller
      · rw [hget]
        exact (ih.ask caller).settle hcaller
  | ask h caller ih => exact ih.ask caller
  | settle h hcaller ih => exact ih.settle hcaller
  | drop h hentry position ih => exact ih.drop hentry position
  | delete h ih =>
      exact ⟨ih.concurrency_eq, ih.places, ih.bound, ih.issued, ih.fresh, ih.once⟩

@[simp] theorem opening_get (t : Traffic Caller) (caller : Caller) :
    (t.get caller).opening = t.opening := by
  unfold Traffic.get
  split <;> rfl

/-- A failed get leaves everything as it was. -/
theorem get_of_error {caller : Caller} {e : StoreError} {pool : HandlePool}
    (h : t.pool.checkOut t.file = (.error e, pool)) : t.get caller = t := by
  obtain ⟨-, rfl⟩ := HandlePool.checkOut_error h
  unfold Traffic.get
  rw [h]

/-- Gets that are made at once are gets. -/
theorem Serial.run [DecidableEq Caller] (h : Serial concurrency t) : Run concurrency t := by
  induction h with
  | start file hpool => exact .start file hpool
  | get _ caller ih => exact ih.get caller
  | drop _ hentry position ih => exact ih.drop hentry position
  | delete _ ih => exact ih.delete

/-- **Nobody keeps a place** without a handle, if every get is made at once. -/
theorem Serial.opening_eq_nil [DecidableEq Caller] (h : Serial concurrency t) :
    t.opening = [] := by
  induction h with
  | start => rfl
  | get _ caller ih => rw [opening_get, ih]
  | drop _ _ _ ih => exact ih
  | delete _ ih => exact ih

end

/-- What callers can rely on, also those who come while others are about to
open the file.

* `issued_eq`: the handles that were opened are idle or out, so that many are
  open.
* `opened_eq`, `opened_le`: the pool counts them, and the places that callers
  have who are about to open the file; never more than its concurrency.
* `get_fails_iff`, `get_failed`: when a get fails, how, and that it leaves the
  pool as it was, and everything else.
* `settle_failed`: so does a get that others came between; it gives back its
  place.
* `waits_iff`: a get waits exactly if as many handles as may be open are out, or
  will be at once.
* `held_once`, `not_idle`: no handle is out twice, or idle while it is out. -/
structure AccountsAmid [DecidableEq Caller] (concurrency : Nat) (t : Traffic Caller) : Prop where
  issued_eq : t.pool.issued = t.pool.idle.length + t.held.length
  opened_eq : t.pool.opened = t.pool.idle.length + t.held.length + t.opening.length
  opened_le : t.pool.opened ≤ concurrency
  get_fails_iff : (∃ e, (t.pool.checkOut t.file).1 = .error e) ↔
    t.pool.idle = [] ∧ t.held.length + t.opening.length < concurrency ∧ t.file.named = false
  get_failed : ∀ {e : StoreError} {pool : HandlePool},
    t.pool.checkOut t.file = (.error e, pool) →
      e = .openFailed ∧ pool = t.pool ∧ ∀ caller, t.get caller = t
  settle_failed : ∀ {caller : Caller} {e : StoreError} {pool : HandlePool},
    caller ∈ t.opening → t.pool.settle t.file = (.error e, pool) →
      e = .openFailed ∧ t.pool = { pool with opened := pool.opened + 1 }
  waits_iff : (t.pool.checkOut t.file).1 = .ok none ↔
    t.held.length + t.opening.length = concurrency
  held_once : t.held.Pairwise fun entry other => entry.2.id ≠ other.2.id
  not_idle : ∀ entry ∈ t.held, ∀ handle ∈ t.pool.idle, entry.2.id ≠ handle.id

/-- What callers can rely on whose gets are made at once.

* `opened_eq_open`: the pool counts the handles that are idle or out.
* `get_fails_exactly`: a get fails exactly if none is idle, one more may be
  opened, and the file cannot be.
* `never_waits`: a get does not wait while fewer handles are out than may be
  open. -/
structure Accounts [DecidableEq Caller] (concurrency : Nat) (t : Traffic Caller) : Prop
    extends AccountsAmid concurrency t where
  opened_eq_open : t.pool.opened = t.pool.idle.length + t.held.length
  get_fails_exactly : (∃ e, (t.pool.checkOut t.file).1 = .error e) ↔
    t.pool.idle = [] ∧ t.held.length < concurrency ∧ t.file.named = false
  never_waits : t.held.length < concurrency → (t.pool.checkOut t.file).1 ≠ .ok none

section

variable [DecidableEq Caller] {concurrency : Nat} {t : Traffic Caller}

theorem Run.accountsAmid (h : Run concurrency t) : AccountsAmid concurrency t := by
  obtain ⟨hconcurrency, hplaces, hbound, hissued, hfresh, honce⟩ := h.balanced
  rw [ids, List.nodup_append] at honce
  obtain ⟨hheld, -, hapart⟩ := honce
  refine {
    issued_eq := hissued
    opened_eq := hplaces
    opened_le := hbound
    get_fails_iff := ?_
    get_failed := ?_
    settle_failed := ?_
    waits_iff := ?_
    held_once := List.pairwise_map.mp hheld
    not_idle := ?_ }
  · rw [HandlePool.checkOut_eq_error_iff]
    constructor
    · rintro ⟨hidle, hroom, hnamed⟩
      rw [hidle, List.length_nil] at hplaces
      exact ⟨hidle, by omega, hnamed⟩
    · rintro ⟨hidle, hroom, hnamed⟩
      rw [hidle, List.length_nil] at hplaces
      exact ⟨hidle, by omega, hnamed⟩
  · intro e pool hfailed
    obtain ⟨he, hpool⟩ := HandlePool.checkOut_error hfailed
    exact ⟨he, hpool, fun caller => get_of_error hfailed⟩
  · intro caller e pool hcaller hsettle
    have hpos := List.length_pos_of_mem hcaller
    by_cases hnamed : t.file.named = true
    · rw [HandlePool.settle_of_named _ hnamed] at hsettle
      cases hsettle
    · rw [HandlePool.settle_of_not_named _ hnamed] at hsettle
      obtain ⟨he, rfl⟩ := Prod.mk.inj hsettle
      have hback : t.pool.opened - 1 + 1 = t.pool.opened := by omega
      refine ⟨(Except.error.inj he).symm, ?_⟩
      simp only [hback]
  · rw [HandlePool.checkOut_eq_none_iff, hconcurrency]
    constructor
    · rintro ⟨hidle, hfull⟩
      rw [hidle, List.length_nil] at hplaces
      omega
    · intro hall
      have hidle : t.pool.idle.length = 0 := by omega
      exact ⟨List.length_eq_zero_iff.mp hidle, by omega⟩
  · intro entry hentry handle hhandle
    exact hapart _ (List.mem_map_of_mem hentry) _ (List.mem_map_of_mem hhandle)

theorem Serial.accounts (h : Serial concurrency t) : Accounts concurrency t := by
  have hamid := h.run.accountsAmid
  have hnone : t.opening.length = 0 := List.length_eq_zero_iff.mpr h.opening_eq_nil
  refine { hamid with opened_eq_open := ?_, get_fails_exactly := ?_, never_waits := ?_ }
  · rw [hamid.opened_eq, hnone, Nat.add_zero]
  · rw [hamid.get_fails_iff, hnone, Nat.add_zero]
  · intro hroom hwait
    have hall := hamid.waits_iff.mp hwait
    rw [hnone, Nat.add_zero] at hall
    exact Nat.ne_of_lt hroom hall

end

/-- **Handles are accounted for**, whatever callers do and in whatever order.
While others are about to open the file, the places they have count as well. -/
theorem handles_accounted [DecidableEq Caller] (concurrency : Nat) :
    (∀ {t : Traffic Caller}, Serial concurrency t → Accounts concurrency t) ∧
      ∀ {t : Traffic Caller}, Run concurrency t → AccountsAmid concurrency t :=
  ⟨Serial.accounts, Run.accountsAmid⟩

/-- One caller gets a handle, the file is deleted, and another cannot open it any
more; then the handle is dropped where it has come to.  The same with a place
that the other caller has had since before the drop. -/
theorem handles_accounted_after_failure :
    (∃ t : Traffic Nat, Serial 2 t ∧
      t = ⟨⟨[1, 2, 3], false⟩, ⟨2, [⟨0, 3⟩], 1, 1⟩, [], []⟩ ∧ Accounts 2 t) ∧
    ∃ t : Traffic Nat, Run 2 t ∧
      t = ⟨⟨[1, 2, 3], false⟩, ⟨2, [⟨0, 3⟩], 1, 1⟩, [], []⟩ ∧ AccountsAmid 2 t := by
  have hpool : HandlePool.create 2 = .ok ⟨2, [], 0, 0⟩ := rfl
  have hentry : (7, (⟨0, 0⟩ : Handle)) ∈ [(7, (⟨0, 0⟩ : Handle))] := List.mem_singleton_self _
  constructor
  · have hstart : Serial 2 (⟨⟨[1, 2, 3], true⟩, ⟨2, [], 0, 0⟩, [], []⟩ : Traffic Nat) :=
      .start _ hpool
    have hfailed := ((hstart.get 7).delete.get 8).drop hentry 3
    exact ⟨_, hfailed, rfl, (handles_accounted 2).1 hfailed⟩
  · have hstart : Run 2 (⟨⟨[1, 2, 3], true⟩, ⟨2, [], 0, 0⟩, [], []⟩ : Traffic Nat) :=
      .start _ hpool
    have hdropped := ((hstart.get 7).ask 8).drop hentry 3
    have hfailed := hdropped.delete.settle (List.mem_singleton_self 8)
    exact ⟨_, hfailed, rfl, (handles_accounted 2).2 hfailed⟩

end Traffic

end RecordStore
