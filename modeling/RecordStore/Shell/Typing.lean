import RecordStore.Text.Grapheme

/-!
# Lines as they were typed

A line may hold backspaces.  Each takes back the cluster typed before it, as
many bytes as that had; before the first cluster there is nothing to take
back.  The number of bytes is kept in one byte, so of a cluster of 256 bytes
or more only what is left over beyond them is taken back.  A line that this
leaves in the middle of a character cannot be read.

* `edited_eq_self` — a line without backspaces is itself.
-/

namespace RecordStore.Shell.Typing

open Grapheme (clusters)

/-- A line as far as it was typed. -/
structure Typed where
  /-- Its characters, the last one first. -/
  text : List Char
  /-- The bytes that the next backspaces take back. -/
  sizes : List UInt8
  deriving DecidableEq, Repr

/-- The character that takes back. -/
def backspace : Char := '\x08'

/-- A line, its last character first, without as many bytes at its end; none
if that cuts a character. -/
def takeBack : (bytes : Nat) → List Char → Option (List Char)
  | 0, text => some text
  | _, [] => some []
  | bytes + 1, c :: text =>
    if c.utf8Size ≤ bytes + 1 then takeBack (bytes + 1 - c.utf8Size) text else none

/-- The number of bytes of a text. -/
def byteLength (text : List Char) : Nat :=
  text.foldl (fun n c => n + c.utf8Size) 0

namespace Typed

/-- Types a cluster, or takes one back. -/
def press (typed : Typed) (cluster : List Char) : Option Typed :=
  if cluster = [backspace] then
    match typed.sizes with
    | [] => some typed
    | size :: sizes => (takeBack size.toNat typed.text).map (⟨·, sizes⟩)
  else some ⟨cluster.reverse ++ typed.text, UInt8.ofNat (byteLength cluster) :: typed.sizes⟩

/-- Types clusters one after another. -/
def pressAll (typed : Typed) : List (List Char) → Option Typed
  | [] => some typed
  | cluster :: others => (typed.press cluster).bind (·.pressAll others)

/-- Clusters that take nothing back are added to the line. -/
theorem text_pressAll {typed : Typed} {keys : List (List Char)} (h : [backspace] ∉ keys) :
    (typed.pressAll keys).map text = some (keys.flatten.reverse ++ typed.text) := by
  induction keys generalizing typed with
  | nil => rfl
  | cons cluster others ih =>
    obtain ⟨first, later⟩ := not_or.1 (mt List.mem_cons.2 h)
    simp [pressAll, press, Ne.symm first, ih later]

end Typed

/-- What a line comes to; none if it cannot be read. -/
def edited (line : List Char) : Option (List Char) :=
  ((Typed.mk [] []).pressAll (clusters line)).map (·.text.reverse)

/-- **Nothing else is changed.**  A line without backspaces is itself. -/
theorem edited_eq_self {line : List Char} (h : backspace ∉ line) : edited line = some line := by
  have apart : [backspace] ∉ clusters line := fun key =>
    h (Grapheme.flatten_clusters line ▸ List.mem_flatten_of_mem key List.mem_cons_self)
  have typed := @Typed.text_pressAll ⟨[], []⟩ _ apart
  rw [Grapheme.flatten_clusters] at typed
  obtain ⟨after, pressed, text⟩ := Option.map_eq_some_iff.1 typed
  simp [edited, pressed, text]

end RecordStore.Shell.Typing
