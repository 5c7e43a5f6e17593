import Mathlib
import RecordStore.Bytes
import RecordStore.StoreError

/-!
# Machines with bounds

The definitions of this library count with numbers of any size and take what
there is of a list.  A machine has words, and indices and slices that have to
be inside.  A `Checked` result says where one would do what a machine does not
allow; other errors, which programs report, are apart from that.

An operation that can report an error is in `ExceptT StoreError Checked`.  It
is compared with a definition without bounds by `run_bind`: step for step.
-/

namespace RecordStore

/-- What a machine does not allow. -/
inductive Fault
  /-- A number does not fit its word. -/
  | overflow
  /-- A number is divided by zero. -/
  | division
  /-- An index or a slice is not inside. -/
  | outside
  deriving DecidableEq, Repr

/-- What a machine comes to, if it can go on. -/
abbrev Checked (α : Type) : Type :=
  Except Fault α

namespace Checked

/-- A number in a word of so many bits. -/
def word (bits n : Nat) : Checked Nat :=
  if n < 2 ^ bits then .ok n else .error .overflow

/-- A difference of words, which have no sign. -/
def minus (n m : Nat) : Checked Nat :=
  if m ≤ n then .ok (n - m) else .error .overflow

/-- A remainder. -/
def remainder (n m : Nat) : Checked Nat :=
  if m = 0 then .error .division else .ok (n % m)

/-- A place in an array of so many. -/
def index (place size : Nat) : Checked Unit :=
  if place < size then .ok () else .error .outside

/-- The bytes from `first` on, up to `last`. -/
def slice (bytes : Bytes) (first last : Nat) : Checked Bytes :=
  if first ≤ last ∧ last ≤ bytes.length then .ok ((bytes.drop first).take (last - first))
  else .error .outside

theorem word_of_lt {bits n : Nat} (h : n < 2 ^ bits) : word bits n = .ok n :=
  if_pos h

theorem minus_of_le {n m : Nat} (h : m ≤ n) : minus n m = .ok (n - m) :=
  if_pos h

theorem minus_eq_ok {n m difference : Nat} (h : minus n m = .ok difference) :
    m ≤ n ∧ difference = n - m := by
  unfold minus at h
  split at h
  · cases h
    exact ⟨‹_›, rfl⟩
  · cases h

theorem word_eq_ok {bits n value : Nat} (h : word bits n = .ok value) : value = n := by
  unfold word at h
  split at h
  · cases h
    rfl
  · cases h

theorem remainder_of_pos {n m : Nat} (h : 0 < m) : remainder n m = .ok (n % m) :=
  if_neg (Nat.ne_of_gt h)

theorem index_of_lt {place size : Nat} (h : place < size) : index place size = .ok () :=
  if_pos h

theorem slice_of_le {bytes : Bytes} {first length : Nat} (h : first + length ≤ bytes.length) :
    slice bytes first (first + length) = .ok ((bytes.drop first).take length) := by
  unfold slice
  rw [if_pos ⟨Nat.le_add_right .., h⟩, Nat.add_sub_cancel_left]

/-- The bytes between others. -/
theorem slice_append (front middle back : Bytes) :
    slice (front ++ middle ++ back) front.length (front.length + middle.length) = .ok middle := by
  have hinside : front.length + middle.length ≤ (front ++ middle ++ back).length := by
    rw [List.length_append, List.length_append]
    exact Nat.le_add_right ..
  rw [slice_of_le hinside, List.append_assoc, List.drop_left, List.take_left]

section

variable {α β γ : Type}

/-- What a machine can do it goes on with. -/
theorem bind_of_eq {x : Checked α} {a : α} {f : α → Checked β} (h : x = .ok a) :
    (x >>= f) = f a := by
  rw [h]
  rfl

theorem run_lift_bind {x : Checked α} {a : α} {f : α → ExceptT StoreError Checked β}
    (h : x = .ok a) : ((liftM x : ExceptT StoreError Checked α) >>= f).run = (f a).run := by
  rw [h]
  rfl

/-- **Step for step**: if the first step is the same without bounds, up to how
its result is written, and then the rest is, all of it is. -/
theorem run_bind_map {x : ExceptT StoreError Checked γ} {f : γ → ExceptT StoreError Checked β}
    {r : Except StoreError α} {k : α → γ} {g : α → Except StoreError β}
    (hx : x.run = .ok (r >>= fun a => .ok (k a)))
    (hf : ∀ a, r = .ok a → (f (k a)).run = .ok (g a)) : (x >>= f).run = .ok (r >>= g) := by
  rw [ExceptT.run_bind, hx]
  cases r with
  | error e => rfl
  | ok a => exact hf a rfl

theorem run_bind {x : ExceptT StoreError Checked α} {f : α → ExceptT StoreError Checked β}
    {r : Except StoreError α} {g : α → Except StoreError β} (hx : x.run = .ok r)
    (hf : ∀ a, r = .ok a → (f a).run = .ok (g a)) : (x >>= f).run = .ok (r >>= g) :=
  run_bind_map (hx.trans (congrArg Except.ok (bind_pure r).symm)) hf

end

end Checked

end RecordStore
