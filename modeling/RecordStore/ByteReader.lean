import RecordStore.Bytes
import RecordStore.StoreError

/-!
# Reading resident bytes from front to back

A `ByteReader` stands somewhere in bytes that are all there.  Moving it
forward fails rather than leave them.

`takes_eq_ok_iff` — runs taken one after another are the bytes between where the
reader was and where it is, and there are runs for as long as there are bytes.
-/

namespace RecordStore

/-- Bytes and a position in them. -/
structure ByteReader where
  /-- All the bytes. -/
  bytes : Bytes
  /-- How many of them lie behind. -/
  position : Nat
  deriving DecidableEq, Repr

namespace ByteReader

/-- A reader at the start of some bytes. -/
def atStart (bytes : Bytes) : ByteReader :=
  ⟨bytes, 0⟩

/-- How many bytes lie ahead. -/
def remaining (reader : ByteReader) : Nat :=
  reader.bytes.length - reader.position

/-- Moves forward. -/
def advance (reader : ByteReader) (count : Nat) : Except StoreError ByteReader :=
  if count ≤ reader.remaining then .ok { reader with position := reader.position + count }
  else .error (.corrupt (.shortAdvance count reader.remaining))

/-- Reads a number of four bytes and moves past it. -/
def word (reader : ByteReader) : Except StoreError (UInt32 × ByteReader) :=
  match Bytes.leading? 4 (reader.bytes.drop reader.position) with
  | some n => .ok (UInt32.ofNat n, { reader with position := reader.position + 4 })
  | none => .error (.corrupt .endOfData)

/-- Takes the next `count` bytes and moves past them. -/
def take (reader : ByteReader) (count : Nat) : Except StoreError (Bytes × ByteReader) := do
  let after ← reader.advance count
  return ((reader.bytes.drop reader.position).take count, after)

/-- Takes one run of bytes after another, each as long as asked for. -/
def takes (reader : ByteReader) : List Nat → Except StoreError (List Bytes × ByteReader)
  | [] => .ok ([], reader)
  | count :: counts => do
    let (run, after) ← reader.take count
    let (runs, last) ← after.takes counts
    return (run :: runs, last)

variable {reader after : ByteReader} {count : Nat} {counts : List Nat} {run : Bytes}
  {runs : List Bytes}

/-- The next bytes are taken if there are as many. -/
theorem take_eq_ok_iff : reader.take count = .ok (run, after) ↔
    run.length = count ∧ run <+: reader.bytes.drop reader.position ∧
      after = { reader with position := reader.position + run.length } := by
  have hremaining : reader.remaining = (reader.bytes.drop reader.position).length :=
    List.length_drop.symm
  unfold take advance
  by_cases hfits : count ≤ reader.remaining
  · simp only [hfits, if_pos, bind, Except.bind, pure, Except.pure, Except.ok.injEq, Prod.mk.injEq]
    have hlength : ((reader.bytes.drop reader.position).take count).length = count := by
      rw [List.length_take, ← hremaining, Nat.min_eq_left hfits]
    constructor
    · rintro ⟨rfl, rfl⟩
      exact ⟨hlength, List.take_prefix .., by rw [hlength]⟩
    · rintro ⟨rfl, hfront, rfl⟩
      exact ⟨(List.prefix_iff_eq_take.mp hfront).symm, rfl⟩
  · simp only [hfits, if_false, bind, Except.bind]
    refine iff_of_false (fun h => nomatch h) ?_
    rintro ⟨rfl, hfront, -⟩
    exact hfits (hremaining ▸ hfront.length_le)

theorem takes_cons_eq_ok_iff : reader.takes (count :: counts) = .ok (runs, after) ↔
    ∃ run rest next, reader.take count = .ok (run, next) ∧
      next.takes counts = .ok (rest, after) ∧ runs = run :: rest := by
  rw [takes]
  cases htake : reader.take count with
  | error e => simp [bind, Except.bind]
  | ok taken =>
    obtain ⟨run, next⟩ := taken
    cases hrest : next.takes counts with
    | error e => simp [bind, Except.bind, hrest]
    | ok last =>
      simp only [bind, Except.bind, hrest, pure, Except.pure]
      constructor
      · intro h
        cases h
        exact ⟨run, last.1, next, rfl, hrest, rfl⟩
      · rintro ⟨run', rest, next', hsame, hlast, rfl⟩
        cases hsame
        cases hrest.symm.trans hlast
        rfl

/-- **Nothing is skipped and nothing is read twice.**  Runs are taken if they are
as long as asked for and, put together, are the bytes ahead as far as they go. -/
theorem takes_eq_ok_iff : reader.takes counts = .ok (runs, after) ↔
    runs.map List.length = counts ∧ runs.flatten <+: reader.bytes.drop reader.position ∧
      after = { reader with position := reader.position + runs.flatten.length } := by
  induction counts generalizing reader runs with
  | nil =>
    simp only [takes, Except.ok.injEq, Prod.mk.injEq, List.map_eq_nil_iff]
    constructor
    · rintro ⟨rfl, rfl⟩
      exact ⟨rfl, List.nil_prefix, rfl⟩
    · rintro ⟨rfl, -, rfl⟩
      exact ⟨rfl, rfl⟩
  | cons count counts ih =>
    rw [takes_cons_eq_ok_iff]
    simp only [take_eq_ok_iff, ih]
    constructor
    · rintro ⟨run, rest, next, ⟨rfl, ⟨ahead, hahead⟩, rfl⟩, ⟨rfl, hrest, rfl⟩, rfl⟩
      rw [← List.drop_drop, ← hahead, List.drop_left] at hrest
      rw [List.flatten_cons, List.length_append, Nat.add_assoc, ← hahead]
      exact ⟨rfl, (List.prefix_append_right_inj run).mpr hrest, rfl⟩
    · rintro ⟨hlengths, hfront, rfl⟩
      obtain ⟨run, rest, rfl, rfl, rfl⟩ := List.map_eq_cons_iff.mp hlengths
      rw [List.flatten_cons] at hfront
      obtain ⟨ahead, hahead⟩ := (List.prefix_append run rest.flatten).trans hfront
      rw [← hahead, List.prefix_append_right_inj] at hfront
      refine ⟨run, rest, _, ⟨rfl, ⟨ahead, hahead⟩, rfl⟩, ⟨rfl, ?_, ?_⟩, rfl⟩
      · rw [← List.drop_drop, ← hahead, List.drop_left]
        exact hfront
      · rw [List.flatten_cons, List.length_append, Nat.add_assoc]

/-- **A reader at the start** cuts the front of the bytes into the runs asked
for. -/
theorem takes_atStart {bytes : Bytes} : (atStart bytes).takes counts = .ok (runs, after) ↔
    runs.map List.length = counts ∧ runs.flatten <+: bytes ∧
      after = ⟨bytes, runs.flatten.length⟩ := by
  rw [takes_eq_ok_iff]
  simp only [atStart, List.drop_zero, Nat.zero_add]

end ByteReader

end RecordStore
