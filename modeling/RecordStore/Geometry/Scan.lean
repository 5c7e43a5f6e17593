import RecordStore.Bytes
import RecordStore.StoreError
import RecordStore.Geometry.Token

/-!
# Reading while writing

A `Scan` reads bytes from the front of a geometry and writes tokens.  What
it has written stays written when it fails, so a failure leaves the text up
to it.

* `Cursor.take_ok_iff` — what is read is what is left, from its front, and
  nothing is read twice;
* `Scan.bind` is the only way to go on, and it goes on only after success.
-/

namespace RecordStore.Geometry

/-- What is left to read, and how much was read before it. -/
structure Cursor where
  rest : Bytes
  position : Nat
  deriving DecidableEq, Repr

/-- Reads from a cursor; yields the tokens written, and a value with what is
left, or an error. -/
def Scan (α : Type) : Type :=
  Cursor → List Token × Except StoreError (α × Cursor)

namespace Scan

/-- Reads and writes nothing. -/
def pure {α : Type} (value : α) : Scan α :=
  fun cursor => ([], .ok (value, cursor))

/-- Goes on with `next` after `first`; a failure of `first` is final. -/
def bind {α β : Type} (first : Scan α) (next : α → Scan β) : Scan β :=
  fun cursor =>
    match first cursor with
    | (written, .ok (value, cursor)) =>
      let (more, result) := next value cursor
      (written ++ more, result)
    | (written, .error e) => (written, .error e)

instance : Monad Scan where
  pure := Scan.pure
  bind := Scan.bind

/-- Fails without reading or writing. -/
def fail {α : Type} (e : StoreError) : Scan α :=
  fun _ => ([], .error e)

/-- Writes a token. -/
def emit (token : Token) : Scan Unit :=
  fun cursor => ([token], .ok ((), cursor))

/-- Reads the next `count` bytes. -/
def take (count : Nat) : Scan Bytes :=
  fun cursor =>
    match Bytes.split? count cursor.rest with
    | some (front, rest) => ([], .ok (front, ⟨rest, cursor.position + count⟩))
    | none =>
      ([], .error (.corrupt (.geometryEnds (cursor.position + cursor.rest.length) count
        cursor.position)))

/-- A value where there is one, or a refusal. -/
def require {α : Type} (value : Option α) (why : Refusal) : Scan α :=
  match value with
  | some value => Scan.pure value
  | none => fail (.invalid why)

@[simp] theorem bind_apply {α β : Type} (first : Scan α) (next : α → Scan β) (cursor : Cursor) :
    (first >>= next) cursor =
      match first cursor with
      | (written, .ok (value, cursor)) =>
        (written ++ (next value cursor).1, (next value cursor).2)
      | (written, .error e) => (written, .error e) :=
  rfl

/-- **Reading consumes from the front.**  A successful read yields the next
bytes and leaves exactly those after them. -/
theorem take_ok_iff {count : Nat} {cursor after : Cursor} {front : Bytes} {written : List Token} :
    take count cursor = (written, .ok (front, after)) ↔
      written = [] ∧ cursor.rest = front ++ after.rest ∧ front.length = count ∧
        after.position = cursor.position + count := by
  unfold take
  split
  · rename_i f r h
    rw [Bytes.split?_eq_some_iff] at h
    constructor
    · rintro h'
      simp only [Prod.mk.injEq, Except.ok.injEq] at h'
      obtain ⟨rfl, rfl, rfl⟩ := h'
      exact ⟨rfl, h.1, h.2, rfl⟩
    · rintro ⟨rfl, hr, hl, hp⟩
      have := List.append_inj (h.1.symm.trans hr) (h.2.trans hl.symm)
      obtain ⟨rfl, rfl⟩ := this
      cases after
      simp_all
  · rename_i h
    rw [Bytes.split?_eq_none_iff] at h
    constructor
    · simp
    · rintro ⟨-, hr, hl, -⟩
      simp [hr] at h
      omega

end Scan

end RecordStore.Geometry
