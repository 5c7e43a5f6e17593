import Mathlib
import RecordStore.Proofs.Geometry.Wkt
import RecordStore.Proofs.Value.Attempts

/-!
# What is left of a text that does not fit

A builder decides about each piece on its own: one that is longer than the room
left is dropped, and what comes after it is written if it fits.  Which pieces
are written depends on their lengths only, so `kept` says it without a builder.

`text_addAll` — a builder holds the pieces that are kept, and only those;
`exists_first_dropped` — up to the first piece that is dropped, the text is the
front of the whole one.  From there on it need not be: `Geometry.convert_cut`
says when it is.
-/

namespace RecordStore

namespace Builder

/-! ## The pieces that are kept -/

/-- The pieces that are written where there is room for so many bytes. -/
def kept : (room : Nat) → List Piece → List Piece
  | _, [] => []
  | room, piece :: rest =>
      if piece.text.length ≤ room then piece :: kept (room - piece.text.length) rest
      else kept room rest

/-- Pieces are dropped, never moved. -/
theorem kept_sublist (room : Nat) (pieces : List Piece) : (kept room pieces).Sublist pieces := by
  induction pieces generalizing room with
  | nil => exact .slnil
  | cons piece rest ih =>
      rw [kept]
      split
      · exact (ih _).cons_cons piece
      · exact (ih _).cons piece

/-- Pieces that fit together are all kept, and leave the rest of the room. -/
theorem kept_append_of_le {room : Nat} {front : List Piece}
    (h : (Piece.textOf front).length ≤ room) (rest : List Piece) :
    kept room (front ++ rest) = front ++ kept (room - (Piece.textOf front).length) rest := by
  induction front generalizing room with
  | nil => rfl
  | cons piece front ih =>
      have hlength : (Piece.textOf (piece :: front)).length =
          piece.text.length + (Piece.textOf front).length := List.length_append
      have hfits : piece.text.length ≤ room := by omega
      rw [List.cons_append, kept, if_pos hfits, ih (by omega), hlength, Nat.sub_add_eq,
        List.cons_append]

/-- Pieces that do not fit together: all are kept up to some piece, which is
dropped. -/
theorem exists_first_dropped {room : Nat} {pieces : List Piece}
    (h : room < (Piece.textOf pieces).length) :
    ∃ front piece rest, pieces = front ++ piece :: rest ∧
      (Piece.textOf front).length ≤ room ∧
      room < (Piece.textOf front).length + piece.text.length ∧
      kept room pieces = front ++ kept (room - (Piece.textOf front).length) rest := by
  induction pieces generalizing room with
  | nil => exact absurd h (Nat.not_lt_zero _)
  | cons piece rest ih =>
      have hlength : (Piece.textOf (piece :: rest)).length =
          piece.text.length + (Piece.textOf rest).length := List.length_append
      by_cases hfits : piece.text.length ≤ room
      · obtain ⟨front, dropped, after, rfl, hfront, hdropped, -⟩ :=
          ih (show room - piece.text.length < _ by omega)
        have hmore : (Piece.textOf (piece :: front)).length =
            piece.text.length + (Piece.textOf front).length := List.length_append
        have hroom : (Piece.textOf (piece :: front)).length ≤ room := by omega
        refine ⟨piece :: front, dropped, after, rfl, hroom, by omega, ?_⟩
        have htoo : ¬ dropped.text.length ≤ room - (Piece.textOf (piece :: front)).length := by
          omega
        rw [← List.cons_append, kept_append_of_le hroom, kept, if_neg htoo]
      · refine ⟨[], piece, rest, rfl, Nat.zero_le _, ?_, ?_⟩
        · have hnone : (Piece.textOf []).length = 0 := rfl
          omega
        · rw [kept, if_neg hfits]
          rfl

/-! ## Builders -/

/-- **A builder holds what is kept**, after what it held before. -/
theorem text_addAll {b : Builder} (h : b.length ≤ b.buffer.size) (pieces : List Piece) :
    (b.addAll pieces).text = b.text ++ Piece.textOf (kept b.remaining pieces) := by
  induction pieces generalizing b with
  | nil => exact (List.append_nil _).symm
  | cons piece rest ih =>
      show ((b.add piece).addAll rest).text = _
      by_cases hfits : piece.text.length ≤ b.remaining
      · have hinside : b.length + piece.text.length ≤ b.buffer.size := by
          unfold remaining at hfits
          omega
        obtain ⟨htext, hlength, -⟩ := add_of_le hfits hinside
        have hroom : (b.add piece).remaining = b.remaining - piece.text.length := by
          rw [remaining, remaining, size_buffer_add, hlength]
          omega
        rw [ih (by rw [hlength, size_buffer_add]; exact hinside), htext, hroom, kept, if_pos hfits,
          List.append_assoc]
        rfl
      · have hdropped : b.add piece =
            { b with added := b.added + piece.text.length, full := true } := by
          rw [Builder.add, if_neg hfits]
        rw [kept, if_neg hfits, hdropped]
        exact ih h

/-- The terminator is written behind the text and changes nothing of it. -/
theorem text_complete (b : Builder) : b.complete.text = b.text := by
  unfold complete
  split
  · show (b.buffer.setIfInBounds b.length 0).toList.take b.length = b.buffer.toList.take b.length
    rw [Array.toList_setIfInBounds, List.take_set_of_le (Nat.le_refl _)]
  · rfl

/-- Where there is a byte behind the text, the terminator is there. -/
theorem getElem?_complete {b : Builder} (h : b.length < b.buffer.size) :
    b.complete.buffer[b.complete.length]? = some 0 := by
  rw [complete, if_pos h]
  exact Array.getElem?_setIfInBounds_self_of_lt h

end Builder

namespace Geometry

/-! ## Geometries -/

/-- No geometry has an empty text. -/
theorem textOf_pieces_ne_nil {wkb : Bytes} {places : Nat} (h : (pieces wkb places).2 = .ok ()) :
    Piece.textOf (pieces wkb places).1 ≠ [] := by
  obtain ⟨t, -, htext⟩ := pieces_ok_iff_begins.mp ⟨h, rfl⟩
  have hname : spell t.name ≠ [] := by
    rw [t.name_eq]
    cases t.kind <;> decide
  have htitle : t.title ≠ [] := List.append_ne_nil_of_left_ne_nil hname _
  rw [htext]
  exact List.append_ne_nil_of_left_ne_nil htitle _

/-- **What a buffer holds that is too small.**  The characters before the
terminator are characters of the whole text, in its order: all pieces up to
some piece that does not fit, and of the pieces after it those that still do.
So they are the front of the whole text exactly if those last pieces happen to
spell what comes next in it. -/
theorem convert_cut {wkb : Bytes} {buffer : Array UInt8} {places written : Nat} {b : Builder}
    (h : convert wkb buffer places = (b, .ok ⟨written, true⟩)) :
    ∃ text, Piece.wholeText (pieces wkb places) = .ok text ∧
      written = text.length + 1 ∧ buffer.size < written ∧ b.text.Sublist text ∧
      (∃ front piece rest, (pieces wkb places).1 = front ++ piece :: rest ∧
        (Piece.textOf front).length ≤ buffer.size - 1 ∧
        buffer.size - 1 < (Piece.textOf front).length + piece.text.length ∧
        b.text = Piece.textOf front ++
          Piece.textOf (Builder.kept (buffer.size - 1 - (Piece.textOf front).length) rest) ∧
        (b.text <+: text ↔
          Piece.textOf (Builder.kept (buffer.size - 1 - (Piece.textOf front).length) rest) <+:
            piece.text ++ Piece.textOf rest)) ∧
      (buffer.size = 0 ∨ b.buffer[b.length]? = some 0) := by
  cases hresult : (pieces wkb places).2 with
  | error e =>
      have hfail := convert_eq_error hresult buffer
      rw [h] at hfail
      cases hfail
  | ok _ =>
      rw [convert_eq_ok hresult, Prod.mk.injEq, Except.ok.injEq, Conversion.mk.injEq,
        decide_eq_true_iff] at h
      obtain ⟨rfl, rfl, hsmall⟩ := h
      have hfresh := (Builder.renders_over buffer).addAll (pieces wkb places).1
      have htext : ((Builder.over buffer).addAll (pieces wkb places).1).complete.text =
          Piece.textOf (Builder.kept (buffer.size - 1) (pieces wkb places).1) := by
        rw [Builder.text_complete, Builder.text_addAll (Nat.zero_le _)]
        simp [Builder.over, Builder.text, Builder.remaining]
      refine ⟨_, by rw [Piece.wholeText, hresult]; rfl, rfl, hsmall, ?_, ?_, ?_⟩
      · rw [htext]
        exact (Builder.kept_sublist _ _).flatMap Piece.text
      · have hpos := List.length_pos_iff.mpr (textOf_pieces_ne_nil hresult)
        obtain ⟨front, piece, rest, hpieces, hfront, hpiece, hkept⟩ :=
          Builder.exists_first_dropped
            (show buffer.size - 1 < (Piece.textOf (pieces wkb places).1).length by omega)
        rw [hkept] at htext
        have hcut := htext.trans List.flatMap_append
        refine ⟨front, piece, rest, hpieces, hfront, hpiece, hcut, ?_⟩
        rw [hcut, hpieces]
        have hwhole : Piece.textOf (front ++ piece :: rest) =
            Piece.textOf front ++ (piece.text ++ Piece.textOf rest) := List.flatMap_append
        rw [hwhole]
        exact List.prefix_append_right_inj _
      · rcases Nat.eq_zero_or_pos buffer.size with hnone | hsome
        · exact .inl hnone
        · have hsize := hfresh.size
          have hlength := hfresh.length_le
          exact .inr (Builder.getElem?_complete (by omega))

/-- A line without points in eleven bytes: its name fits, and nothing after
it. -/
theorem convert_cut_name :
    convert [1, 2, 0, 0, 0, 0, 0, 0, 0] (.replicate 11 0) 15 =
        (⟨⟨spell "LINESTRING" ++ [0]⟩, 10, 17, true⟩, .ok ⟨17, true⟩) ∧
      ∃ text, Piece.wholeText (pieces [1, 2, 0, 0, 0, 0, 0, 0, 0] 15) = .ok text ∧
        17 = text.length + 1 := by
  have hconvert : convert [1, 2, 0, 0, 0, 0, 0, 0, 0] (.replicate 11 0) 15 =
      (⟨⟨spell "LINESTRING" ++ [0]⟩, 10, 17, true⟩, .ok ⟨17, true⟩) := by
    rfl
  obtain ⟨text, htext, hwritten, -⟩ := convert_cut hconvert
  exact ⟨hconvert, text, htext, hwritten⟩

/-- In eight bytes the name does not fit, and what comes after it does: the
front of the text is missing. -/
theorem convert_cut_front_missing :
    (convert [1, 2, 0, 0, 0, 0, 0, 0, 0] (.replicate 8 0) 15).2 = .ok ⟨17, true⟩ ∧
      (convert [1, 2, 0, 0, 0, 0, 0, 0, 0] (.replicate 8 0) 15).1.text = spell " EMPTY" ∧
      Piece.wholeText (pieces [1, 2, 0, 0, 0, 0, 0, 0, 0] 15) = .ok (spell "LINESTRING EMPTY") ∧
      ¬ (convert [1, 2, 0, 0, 0, 0, 0, 0, 0] (.replicate 8 0) 15).1.text <+:
        spell "LINESTRING EMPTY" := by
  have htext : (convert [1, 2, 0, 0, 0, 0, 0, 0, 0] (.replicate 8 0) 15).1.text =
      spell " EMPTY" := by
    rfl
  refine ⟨rfl, htext, rfl, ?_⟩
  rw [htext]
  decide

end Geometry

end RecordStore
