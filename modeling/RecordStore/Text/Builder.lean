import RecordStore.Bytes

/-!
# Building text in a bounded buffer

Text is produced as **pieces**: single characters, and runs that are to be
kept whole.  A `Builder` puts pieces into a buffer of fixed size and goes on
counting once the buffer is full, so that the size a text needs is known
after one attempt.  One byte of the buffer is always kept for the terminator
that `Builder.complete` writes.

A character that does not fit is dropped; so is a run, whole.  Either way the
count goes on, and the buffer keeps its size.
-/

namespace RecordStore

/-- A part of a text that is written or dropped as a whole. -/
inductive Piece
  /-- One character. -/
  | char (c : UInt8)
  /-- A run of characters. -/
  | run (bytes : Bytes)
  deriving DecidableEq, Repr

namespace Piece

/-- The text of a piece. -/
def text : Piece → Bytes
  | .char c => [c]
  | .run bytes => bytes

/-- The run that spells an ASCII word. -/
def word (text : String) : Piece :=
  .run (text.toList.map fun c => UInt8.ofNat c.toNat)

/-- The character piece of an ASCII character. -/
def sign (c : Char) : Piece :=
  .char (UInt8.ofNat c.toNat)

/-- The text of pieces without any bound. -/
def textOf (pieces : List Piece) : Bytes :=
  pieces.flatMap text

end Piece

/-- A buffer with text at its front. -/
structure Builder where
  /-- The whole buffer. -/
  buffer : Array UInt8
  /-- How many bytes at the front are text. -/
  length : Nat
  /-- How many bytes the text would have without any bound. -/
  added : Nat
  /-- Whether anything was dropped. -/
  full : Bool

namespace Builder

/-- A builder that has written nothing into `buffer` yet. -/
def «over» (buffer : Array UInt8) : Builder :=
  ⟨buffer, 0, 0, false⟩

/-- How much more text fits; the terminator's byte is not offered. -/
def remaining (b : Builder) : Nat :=
  b.buffer.size - (b.length + 1)

/-- A buffer with `bytes` written over what it holds from `start` on. -/
def overwrite (buffer : Array UInt8) (start : Nat) : Bytes → Array UInt8
  | [] => buffer
  | byte :: rest => overwrite (buffer.setIfInBounds start byte) (start + 1) rest

/-- Adds a piece, or drops it if it does not fit. -/
def add (b : Builder) (piece : Piece) : Builder :=
  let text := piece.text
  if text.length ≤ b.remaining then
    { b with
      buffer := overwrite b.buffer b.length text
      length := b.length + text.length
      added := b.added + text.length }
  else { b with added := b.added + text.length, full := true }

/-- Adds pieces one after another. -/
def addAll (b : Builder) (pieces : List Piece) : Builder :=
  pieces.foldl add b

/-- Writes the terminator after the text.  The terminator counts as added. -/
def complete (b : Builder) : Builder :=
  if b.length < b.buffer.size then
    { b with buffer := b.buffer.setIfInBounds b.length 0, added := b.added + 1 }
  else { b with added := b.added + 1, full := true }

/-- The text written so far. -/
def text (b : Builder) : Bytes :=
  b.buffer.toList.take b.length

@[simp] theorem size_overwrite (buffer : Array UInt8) (start : Nat) (bytes : Bytes) :
    (overwrite buffer start bytes).size = buffer.size := by
  induction bytes generalizing buffer start with
  | nil => rfl
  | cons byte rest ih => simp [overwrite, ih]

/-- A piece counts in full whether it fits or not. -/
@[simp] theorem added_add (b : Builder) (piece : Piece) :
    (b.add piece).added = b.added + piece.text.length := by
  unfold add
  dsimp only
  split <;> rfl

@[simp] theorem size_buffer_add (b : Builder) (piece : Piece) :
    (b.add piece).buffer.size = b.buffer.size := by
  unfold add
  dsimp only
  split
  · exact size_overwrite b.buffer b.length piece.text
  · rfl

end Builder

end RecordStore
