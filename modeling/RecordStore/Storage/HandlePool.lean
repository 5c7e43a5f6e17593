import RecordStore.Storage.DataFile

/-!
# Pools of handles

Each reader of a data file needs a handle of its own for as long as it
reads.  A pool opens handles when they are first needed, never more than its
**concurrency**, and keeps those given back for the next reader: the last one
given back goes out first, and stands where it was left.
-/

namespace RecordStore

/-- Handles on one file. -/
structure HandlePool where
  /-- The most handles that are ever open. -/
  concurrency : Nat
  /-- Open handles that nobody has, the last given back first. -/
  idle : List Handle
  /-- How many handles are open. -/
  opened : Nat
  /-- How many handles were ever opened. -/
  issued : Nat
  deriving DecidableEq, Repr

namespace HandlePool

/-- A pool that opens at most `concurrency` handles. -/
def create (concurrency : Nat) : Except StoreError HandlePool :=
  if concurrency = 0 then .error (.invalid .poolConcurrency) else .ok ⟨concurrency, [], 0, 0⟩

/-- Takes a handle: one that nobody has, or a new one.  None if all that may
be open are out, so that the caller has to wait for one.  A file that cannot
be opened leaves the pool as it was. -/
def checkOut (pool : HandlePool) (file : DataFile) :
    Except StoreError (Option Handle) × HandlePool :=
  match pool.idle with
  | handle :: idle => (.ok (some handle), { pool with idle })
  | [] =>
    if pool.opened < pool.concurrency then
      if file.named then
        (.ok (some ⟨pool.issued, 0⟩),
          { pool with opened := pool.opened + 1, issued := pool.issued + 1 })
      else (.error .openFailed, pool)
    else (.ok none, pool)

/-- Gives a handle back. -/
def giveBack (pool : HandlePool) (handle : Handle) : HandlePool :=
  { pool with idle := handle :: pool.idle }

/-- Of a new pool, nothing is open yet. -/
theorem create_eq_ok {concurrency : Nat} {pool : HandlePool} (h : create concurrency = .ok pool) :
    0 < concurrency ∧ pool = ⟨concurrency, [], 0, 0⟩ := by
  unfold create at h
  split at h
  · cases h
  · next hpos => exact ⟨Nat.pos_of_ne_zero hpos, (Except.ok.inj h).symm⟩

/-- A file that cannot be opened leaves the pool as it was. -/
theorem checkOut_error {pool after : HandlePool} {file : DataFile} {e : StoreError}
    (h : pool.checkOut file = (.error e, after)) : e = .openFailed ∧ after = pool := by
  unfold checkOut at h
  split at h
  · simp at h
  · split at h
    · split at h
      · simp at h
      · simp only [Prod.mk.injEq, Except.error.injEq] at h
        exact ⟨h.1.symm, h.2.symm⟩
    · simp at h

end HandlePool

end RecordStore
