import Mathlib
import RecordStore.Text.Builder

/-!
# Buffers with room for a whole text

A builder whose buffer is longer than a text holds all of it and drops
nothing, so it stands for a builder without any bound.
-/

namespace RecordStore.Builder

/-- The bytes after those of a run are left as they are, and so are those
before it. -/
theorem toList_overwrite {buffer : Array UInt8} {start : Nat} {bytes : Bytes}
    (h : start + bytes.length ≤ buffer.size) :
    (overwrite buffer start bytes).toList =
      buffer.toList.take start ++ bytes ++ buffer.toList.drop (start + bytes.length) := by
  induction bytes generalizing buffer start with
  | nil => simp [overwrite]
  | cons byte rest ih =>
      have hstart : start < buffer.toList.length := by
        simp only [List.length_cons] at h
        simpa using (by omega : start < buffer.size)
      have hroom : start + 1 + rest.length ≤ (buffer.setIfInBounds start byte).size := by
        simp only [List.length_cons] at h
        rw [Array.size_setIfInBounds]
        omega
      rw [overwrite, ih hroom, Array.toList_setIfInBounds]
      have hfront : (buffer.toList.set start byte).take (start + 1) =
          buffer.toList.take start ++ [byte] := by
        rw [List.take_add_one, List.take_set_of_le (Nat.le_refl start),
          List.getElem?_set_self hstart, Option.toList_some]
      have hback : (buffer.toList.set start byte).drop (start + 1 + rest.length) =
          buffer.toList.drop (start + (byte :: rest).length) := by
        rw [List.drop_set_of_lt (by omega), List.length_cons]
        congr 1
        omega
      rw [hfront, hback]
      simp

/-- A run changes nothing but the bytes it is written over. -/
theorem getElem?_overwrite_of_outside {buffer : Array UInt8} {start place : Nat} {bytes : Bytes}
    (h : place < start ∨ start + bytes.length ≤ place) :
    (overwrite buffer start bytes)[place]? = buffer[place]? := by
  induction bytes generalizing buffer start with
  | nil => rfl
  | cons byte rest ih =>
      rw [List.length_cons] at h
      have hne : start ≠ place := by omega
      rw [overwrite, ih (by omega), Array.getElem?_setIfInBounds_ne hne]

/-- A piece that is not dropped is put after the text. -/
theorem add_of_le {b : Builder} {piece : Piece} (hfits : piece.text.length ≤ b.remaining)
    (hinside : b.length + piece.text.length ≤ b.buffer.size) :
    (b.add piece).text = b.text ++ piece.text ∧
      (b.add piece).length = b.length + piece.text.length ∧ (b.add piece).full = b.full := by
  rw [add, if_pos hfits]
  refine ⟨?_, rfl, rfl⟩
  have hlength : (b.buffer.toList.take b.length).length = b.length := by
    rw [List.length_take, Array.length_toList]
    omega
  show (overwrite b.buffer b.length piece.text).toList.take _ = b.buffer.toList.take b.length ++ _
  rw [toList_overwrite hinside, List.take_left']
  rw [List.length_append, hlength]

/-- A piece that fits is put after the text. -/
theorem add_of_fits {b : Builder} {piece : Piece}
    (hroom : b.length + piece.text.length < b.buffer.size) :
    (b.add piece).text = b.text ++ piece.text ∧
      (b.add piece).length = b.length + piece.text.length ∧ (b.add piece).full = b.full := by
  have hfits : piece.text.length ≤ b.remaining := by
    unfold remaining
    omega
  exact add_of_le hfits (Nat.le_of_lt hroom)

/-- **Room for everything.**  Pieces that fit together are all there, and
nothing is dropped. -/
theorem addAll_of_fits {b : Builder} {pieces : List Piece}
    (hroom : b.length + (Piece.textOf pieces).length < b.buffer.size) :
    (b.addAll pieces).text = b.text ++ Piece.textOf pieces ∧ (b.addAll pieces).full = b.full := by
  induction pieces generalizing b with
  | nil => simp [addAll, Piece.textOf]
  | cons piece rest ih =>
      have hwhole : Piece.textOf (piece :: rest) = piece.text ++ Piece.textOf rest := rfl
      rw [hwhole, List.length_append] at hroom
      have hfirst : b.length + piece.text.length < b.buffer.size := by omega
      obtain ⟨htext, hlength, hfull⟩ := add_of_fits hfirst
      have hrest :
          (b.add piece).length + (Piece.textOf rest).length < (b.add piece).buffer.size := by
        rw [hlength, size_buffer_add]
        omega
      obtain ⟨htexts, hfulls⟩ := ih hrest
      rw [htext] at htexts
      rw [hfull] at hfulls
      exact ⟨by rw [hwhole, ← List.append_assoc]; exact htexts, hfulls⟩

/-- A fresh buffer longer than a text holds exactly that text. -/
theorem over_addAll_of_fits {buffer : Array UInt8} {pieces : List Piece}
    (hroom : (Piece.textOf pieces).length < buffer.size) :
    ((Builder.over buffer).addAll pieces).text = Piece.textOf pieces ∧
      ((Builder.over buffer).addAll pieces).full = false := by
  have hfresh : (Builder.over buffer).length + (Piece.textOf pieces).length <
      (Builder.over buffer).buffer.size := by
    simpa [Builder.over] using hroom
  have h := addAll_of_fits hfresh
  simpa [Builder.over, text] using h

end RecordStore.Builder
